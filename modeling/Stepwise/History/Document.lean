import Stepwise.History.Basic
import Stepwise.Text.Json

/-!
# Histories as JSON

A history becomes an object with its first entry, its last entry, all its entries and
the number of steps. The members stand in a fixed order, and the variables of a store
stand in the store's order.
-/

namespace Stepwise

/-- A store as an object from names to the texts of the values. -/
def Store.document (s : Store) : Json :=
  .object (s.texts.map fun p => (p.1, .text p.2))

/-- An entry as an object. -/
def Entry.document (e : Entry) : Json :=
  .object [
    ("index", .int e.index),
    ("program", .text e.state.program.text),
    ("environment", e.state.store.document)]

/-- An entry that may be missing. -/
def Entry.documentOf : Option Entry → Json
  | some e => e.document
  | none => .null

namespace History

/-- A history as an object. -/
def document (h : History) : Json :=
  .object [
    ("initial", Entry.documentOf h.initial?),
    ("final", Entry.documentOf h.final?),
    ("configurations", .list (h.entries.map Entry.document)),
    ("step_count", .int h.stepCount)]

/-- A history as the text of a JSON document with the given indentation. -/
def json (h : History) (indent : Option Int) : String :=
  h.document.render (.ofIndent indent)

end History

end Stepwise
