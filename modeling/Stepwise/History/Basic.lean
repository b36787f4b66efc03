import Stepwise.State

/-!
# Histories

A `History` is the record of a run: the states it visited, oldest first, each with its
number. The number is that of the steps the session had taken by then; it is recorded
with the state and plays no part when entries are compared.
-/

namespace Stepwise

/-- A recorded state. -/
structure Entry where
  /-- The number of steps taken when the state was recorded. -/
  index : Int
  state : State
  deriving DecidableEq

namespace Entry

def text (e : Entry) : String := e.state.text

def texts (e : Entry) : String × String := e.state.texts

def display (e : Entry) : String :=
  "Configuration(" ++ Numeral.write e.index ++ ": " ++ e.text ++ ")"

/-- Whether two entries record the same state. -/
def same (e f : Entry) : Bool := e.state.same f.state

end Entry

/-- The states that a run visited, oldest first. -/
structure History where
  entries : List Entry
  deriving DecidableEq

namespace History

def empty : History := ⟨[]⟩

instance : Inhabited History := ⟨empty⟩

def initial? (h : History) : Option Entry := h.entries.head?

def final? (h : History) : Option Entry := h.entries.getLast?

def size (h : History) : Nat := h.entries.length

/-- How many steps lie between the first entry and the last. -/
def stepCount (h : History) : Nat := h.size - 1

/-- Whether the run took a step at all. -/
def moved (h : History) : Bool := 0 < h.stepCount

def texts (h : History) : List (String × String) := h.entries.map Entry.texts

/-- The entry at a position; negative positions count from the end. -/
def at? (h : History) (i : Int) : Option Entry :=
  if 0 ≤ i then h.entries[i.toNat]?
  else if 0 ≤ i + h.size then h.entries[(i + h.size).toNat]?
  else none

end History

/-- What can be wrong with a question to a history. -/
inductive HistoryError
  | unknownStyle (name : String)
  | outOfRange
  /-- The position is too large for any history, from whichever end it counts. -/
  | positionTooLarge
  deriving DecidableEq

def HistoryError.message : HistoryError → String
  | unknownStyle name =>
    "Unknown trace format: " ++ name ++ ". Use one of: lines, verbose, chain, compact"
  | outOfRange => "list index out of range"
  | positionTooLarge => "cannot fit 'int' into an index-sized integer"

namespace History

/-- Positions are integers of 64 bits. -/
def isPosition (i : Int) : Bool :=
  Int64.minValue.toInt ≤ i && i ≤ Int64.maxValue.toInt

/-- The entry at a position, or the report why there is none. -/
def entryAt (h : History) (i : Int) : Except HistoryError Entry :=
  if isPosition i then
    match h.at? i with
    | some e => .ok e
    | none => .error .outOfRange
  else .error .positionTooLarge

end History

end Stepwise
