import Mathlib.Data.List.Forall2
import Stepwise.History.Document
import Stepwise.Proofs.Text.Render

/-!
# Histories as JSON, read back

The text of a history is a JSON document with any indentation, and it denotes what was
written and nothing else. No object in it has a name twice, so nothing depends on how a
reader treats repeated names.

What was written is told by what a reader finds under the names (`HeldBy`): of every entry the
number, the program and the variables in the store's order, and that the first and the last of
the entries are named again. So a text tells exactly what its entries show
(`document_eq_iff_shown`).

Main statement: `json_decodes`.
-/

namespace Stepwise

open Grammar

/-! ## What a reader finds -/

namespace Grammar.Datum

/-- The names in an object, in their order. -/
def names : Datum → List String
  | object members => members.map Prod.fst
  | _ => []

/-- What stands under a name in an object. -/
def member? (name : String) : Datum → Option Datum
  | object members => members.lookup name
  | _ => none

end Grammar.Datum

/-- The value tells of the entry: its number, its program, and under the name of each variable
the text of its value, the variables in the store's order. -/
structure Entry.HeldBy (e : Entry) (d : Datum) : Prop where
  names : d.names = ["index", "program", "environment"]
  index : d.member? "index" = some (.int e.index)
  program : d.member? "program" = some (.text e.state.program.text)
  environment : d.member? "environment" =
    some (.object (e.state.store.entries.map fun p => (p.1, .text p.2.text)))

/-- The value tells of the history: of each entry in order, of the first and the last of them,
if there are any, and of the number of steps between these. -/
structure History.HeldBy (h : History) (d : Datum) : Prop where
  names : d.names = ["initial", "final", "configurations", "step_count"]
  configurations : ∃ items, d.member? "configurations" = some (.list items) ∧
    List.Forall₂ Entry.HeldBy h.entries items ∧
    d.member? "initial" = some (items.head?.getD .null) ∧
    d.member? "final" = some (items.getLast?.getD .null)
  step_count : d.member? "step_count" = some (.int (h.entries.length - 1 : Nat))

/-- What is told of an entry. -/
def Entry.shown (e : Entry) : Int × String × List (String × String) :=
  (e.index, e.state.program.text, e.state.store.texts)

theorem Entry.HeldBy.shown_eq {e e' : Entry} {d : Datum} (h : e.HeldBy d) (h' : e'.HeldBy d) :
    e.shown = e'.shown := by
  have hindex : e.index = e'.index := by
    simpa using h.index.symm.trans h'.index
  have hprogram : e.state.program.text = e'.state.program.text := by
    simpa using h.program.symm.trans h'.program
  have hstore : e.state.store.texts = e'.state.store.texts := by
    have hpair : Function.Injective fun p : String × String => (p.1, Datum.text p.2) := by
      intro p q hpq
      simpa [Prod.ext_iff] using hpq
    have hobject := h.environment.symm.trans h'.environment
    rw [Option.some.injEq, Datum.object.injEq] at hobject
    apply List.map_injective_iff.2 hpair
    simpa [Store.texts, Function.comp_def] using hobject
  rw [shown, shown, hindex, hprogram, hstore]

/-- What two lists of entries show is told by the values that hold them. -/
theorem Entry.HeldBy.shown_eq_of_forall₂ {es es' : List Entry} {items : List Datum}
    (h : List.Forall₂ Entry.HeldBy es items) (h' : List.Forall₂ Entry.HeldBy es' items) :
    es.map shown = es'.map shown := by
  induction h generalizing es' with
  | nil => cases h'; rfl
  | cons he _ ih =>
    cases h' with
    | cons he' hrest => rw [List.map_cons, List.map_cons, he.shown_eq he', ih hrest]

theorem Entry.document_heldBy (e : Entry) : e.HeldBy e.document.datum := by
  refine ⟨rfl, rfl, rfl, ?_⟩
  show some e.state.store.document.datum = _
  rw [Store.document, Json.datum, Json.memberData_eq_map, Store.texts, List.map_map, List.map_map]
  rfl

/-- The document of an entry depends on nothing but what is shown. -/
theorem Entry.document_congr {e e' : Entry} (h : e.shown = e'.shown) :
    e.document = e'.document := by
  simp only [shown, Prod.mk.injEq] at h
  obtain ⟨hindex, hprogram, hstore⟩ := h
  rw [document, document, Store.document, Store.document, hindex, hprogram, hstore]

/-! ## Names that are there once -/

/-- No object in the value has a name twice. -/
inductive Json.Distinct : Json → Prop
  | null : Distinct .null
  | int {n : Int} : Distinct (.int n)
  | text {s : String} : Distinct (.text s)
  | list {items : List Json} : (∀ v ∈ items, v.Distinct) → Distinct (.list items)
  | object {members : List (String × Json)} : (members.map Prod.fst).Nodup →
      (∀ p ∈ members, p.2.Distinct) → Distinct (.object members)

theorem Store.document_distinct (s : Store) : s.document.Distinct := by
  refine .object ?_ ?_
  · have hnames : ((s.texts.map fun p => (p.1, Json.text p.2)).map Prod.fst) =
        Pairs.keys s.entries := by
      simp [Store.texts, Pairs.keys]
    rw [hnames]
    exact s.nodup
  · intro p hp
    obtain ⟨q, -, rfl⟩ := List.mem_map.1 hp
    exact .text

theorem Entry.document_distinct (e : Entry) : e.document.Distinct := by
  have hnames : ["index", "program", "environment"].Nodup := by decide
  refine .object hnames ?_
  intro p hp
  simp only [List.mem_cons, List.not_mem_nil, or_false] at hp
  rcases hp with rfl | rfl | rfl
  · exact .int
  · exact .text
  · exact e.state.store.document_distinct

theorem Entry.documentOf_distinct (e : Option Entry) : (Entry.documentOf e).Distinct := by
  cases e with
  | none => exact .null
  | some e => exact e.document_distinct

namespace History

variable {h h' : History}

theorem document_distinct (h : History) : h.document.Distinct := by
  have hnames : ["initial", "final", "configurations", "step_count"].Nodup := by decide
  refine .object hnames ?_
  intro p hp
  simp only [List.mem_cons, List.not_mem_nil, or_false] at hp
  rcases hp with rfl | rfl | rfl | rfl
  · exact Entry.documentOf_distinct _
  · exact Entry.documentOf_distinct _
  · refine .list ?_
    intro v hv
    obtain ⟨e, -, rfl⟩ := List.mem_map.1 hv
    exact e.document_distinct
  · exact .int

/-- The document of a history is put together from those of its entries. -/
theorem document_eq (h : History) :
    h.document = .object [
      ("initial", (h.entries.map Entry.document).head?.getD .null),
      ("final", (h.entries.map Entry.document).getLast?.getD .null),
      ("configurations", .list (h.entries.map Entry.document)),
      ("step_count", .int ((h.entries.map Entry.document).length - 1 : Nat))] := by
  have hmissing (e : Option Entry) : Entry.documentOf e = (e.map Entry.document).getD .null := by
    cases e <;> rfl
  rw [document, hmissing, hmissing, List.head?_map, List.getLast?_map, List.length_map]
  rfl

theorem document_heldBy (h : History) : h.HeldBy h.document.datum := by
  have hheld : List.Forall₂ Entry.HeldBy h.entries
      (Json.itemData (h.entries.map Entry.document)) := by
    rw [Json.itemData_eq_map, List.forall₂_map_right_iff, List.forall₂_map_right_iff,
      List.forall₂_same]
    exact fun e _ => e.document_heldBy
  have hlength : (h.entries.map Entry.document).length = h.entries.length := List.length_map ..
  rw [document_eq]
  generalize h.entries.map Entry.document = items at hheld hlength
  have hfirst : (Json.itemData items).head?.getD .null = (items.head?.getD .null).datum := by
    rw [Json.itemData_eq_map, List.head?_map, Json.datum_getD_null]
  have hlast : (Json.itemData items).getLast?.getD .null = (items.getLast?.getD .null).datum := by
    rw [Json.itemData_eq_map, List.getLast?_map, Json.datum_getD_null]
  exact ⟨rfl, ⟨_, rfl, hheld, hfirst ▸ rfl, hlast ▸ rfl⟩, hlength ▸ rfl⟩

theorem HeldBy.shown_eq {d : Datum} (hd : h.HeldBy d) (hd' : h'.HeldBy d) :
    h.entries.map Entry.shown = h'.entries.map Entry.shown := by
  obtain ⟨items, hlist, hheld, -, -⟩ := hd.configurations
  obtain ⟨items', hlist', hheld', -, -⟩ := hd'.configurations
  obtain rfl : items = items' := by
    simpa using hlist.symm.trans hlist'
  exact Entry.HeldBy.shown_eq_of_forall₂ hheld hheld'

/-- Two documents are the same if and only if they show the same entries. -/
theorem document_eq_iff_shown :
    h.document = h'.document ↔ h.entries.map Entry.shown = h'.entries.map Entry.shown := by
  constructor
  · intro hdocument
    exact h.document_heldBy.shown_eq (hdocument ▸ h'.document_heldBy)
  · intro hshown
    have hitems : h.entries.map Entry.document = h'.entries.map Entry.document := by
      rw [← List.forall₂_eq_eq_eq, List.forall₂_map_left_iff, List.forall₂_map_right_iff]
        at hshown ⊢
      exact hshown.imp fun _ _ => Entry.document_congr
    rw [document_eq, document_eq, hitems]

/-- **A history can be read back from its JSON text.** With any indentation the text is a
document that denotes the history's document and nothing else, with the members in their
order and every string and number as it was; it tells of all entries, of the first and the
last, and of the number of steps; no object in it has a name twice. So two histories have a
text in common exactly if their documents are the same, and that is if they show the same. -/
theorem json_decodes (h : History) :
    (∀ indent d, Document (h.json indent).toList d ↔ d = h.document.datum) ∧
      h.HeldBy h.document.datum ∧
      h.document.Distinct ∧
      ∀ h' : History,
        ((∃ indent indent', h'.json indent' = h.json indent) ↔ h'.document = h.document) ∧
        (h'.document = h.document ↔ h'.entries.map Entry.shown = h.entries.map Entry.shown) := by
  refine ⟨fun indent => Json.document_render_iff _ _, h.document_heldBy, h.document_distinct, ?_⟩
  intro h'
  refine ⟨?_, document_eq_iff_shown⟩
  constructor
  · rintro ⟨indent, indent', htext⟩
    have hdocument := Json.document_render (.ofIndent indent') h'.document
    rw [← History.json, htext] at hdocument
    exact Json.datum_inj _ ((Json.document_render_iff _ _ _).1 hdocument)
  · intro hdocument
    exact ⟨none, none, by rw [json, json, hdocument]⟩

/-- An assignment to a variable with a quote in its name, in a store that binds another: the
last entry tells of both variables in the order of their first writes. -/
theorem json_decodes_assignment :
    let s : Store := Table.ofList [("y", .bool true)]
    let h : History :=
      ⟨[⟨0, ⟨.assign "a\"" (.num (-2)), s⟩⟩, ⟨1, ⟨.skip, s.put "a\"" (.num (-2))⟩⟩]⟩
    let first := "\x7b\"index\": 0, \"program\": \"a\\\" = -2\", " ++
      "\"environment\": \x7b\"y\": \"true\"\x7d\x7d"
    let last := "\x7b\"index\": 1, \"program\": \"do-nothing\", " ++
      "\"environment\": \x7b\"y\": \"true\", \"a\\\"\": \"-2\"\x7d\x7d"
    let text := "\x7b\"initial\": " ++ first ++ ", \"final\": " ++ last ++
      ", \"configurations\": [" ++ first ++ ", " ++ last ++ "], \"step_count\": 1\x7d"
    h.json none = text ∧ ∃ d, Document text.toList d ∧ h.HeldBy d ∧
      ∀ indent d', Document (h.json indent).toList d' → d' = d := by
  intro s h first last text
  have htext : h.json none = text := by decide +kernel
  obtain ⟨hreads, hheld, -, -⟩ := json_decodes h
  refine ⟨htext, h.document.datum, ?_, hheld, fun indent d' hd' => (hreads indent d').1 hd'⟩
  rw [← htext]
  exact (hreads none _).2 rfl

end History

end Stepwise
