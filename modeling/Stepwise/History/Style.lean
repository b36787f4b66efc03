import Stepwise.History.Basic

/-!
# Histories as text

A history can be written in four styles: `lines` has one line for each entry, `verbose`
adds the number of each step, `chain` shows the programs alone with arrows between
them, and `compact` names the first entry, the number of steps and the last entry.
-/

namespace Stepwise

/-- The ways to write a history. -/
inductive Style
  | lines
  | verbose
  | chain
  | compact
  deriving DecidableEq, Inhabited, Repr

def Style.ofName? (name : String) : Option Style :=
  if name = "lines" then some .lines
  else if name = "verbose" then some .verbose
  else if name = "chain" then some .chain
  else if name = "compact" then some .compact
  else none

namespace History

def lines (h : History) : String := Text.joinWith "\n" (h.entries.map Entry.text)

/-- One line for each program, with an arrow on a line of its own between neighbours. -/
def chain (h : History) : String :=
  Text.joinWith "\n  -->\n" (h.entries.map fun e => e.state.program.text)

/-- The entries between the first and the last, numbered from `n`. -/
def numbered (n : Nat) : List Entry → List String
  | [] => []
  | e :: rest => ("  " ++ Numeral.write n ++ ". " ++ e.text) :: numbered (n + 1) rest

/-- The first entry, the numbered entries between, and the last entry. A lone entry is
both first and last. -/
def verbose (h : History) : String :=
  match h.entries with
  | [] => "Trace(empty)"
  | first :: rest =>
    Text.joinWith "\n"
      (["Initial: " ++ first.text]
        ++ numbered 1 rest.dropLast
        ++ ["Final: " ++ ((first :: rest).getLast (List.cons_ne_nil _ _)).text])

/-- The first entry, the number of steps and the last entry on one line. -/
def compact (h : History) : String :=
  match h.initial?, h.final? with
  | some first, some last =>
    first.text ++ " --[" ++ Numeral.write h.stepCount ++ " steps]--> " ++ last.text
  | _, _ => "(empty trace)"

def write (h : History) : Style → String
  | .lines => h.lines
  | .verbose => h.verbose
  | .chain => h.chain
  | .compact => h.compact

/-- A history in the style of a given name. -/
def writeAs (h : History) (name : String) : Except HistoryError String :=
  match Style.ofName? name with
  | some style => .ok (h.write style)
  | none => .error (.unknownStyle name)

/-- A sentence on how the run came out. -/
def summary (h : History) : String :=
  match h.final? with
  | none => "Nothing was run"
  | some last =>
    if h.moved then
      Numeral.write h.stepCount ++ " steps, final configuration: " ++ last.text
    else "Already terminal: " ++ last.text

end History

end Stepwise
