import Stepwise.Catalog
import Stepwise.Session.Run

/-!
# A tour of the library

A text in sections, each of which runs a small program and shows what comes of it:
single steps of an expression, a session with a sink, a loop, a branch, and runs that
fail.
-/

namespace Stepwise.Tour

/-- No journey of the tour takes as many steps as this. -/
def budget : Nat := 100

def rule : String := Text.replicate 60 '='

def heading (title : String) : List String := ["", rule, " " ++ title, rule]

/-- A journey of a program from a store, with a sink that prints. -/
def journey (program : Term) (store : Store) : Journey Tray :=
  (Session.begin program store none).travel Sink.print budget Tray.empty

/-- The history of a program from a store. -/
def history (program : Term) (store : Store) : History := ⟨(journey program store).visited⟩

def singleSteps : String :=
  let p := Catalog.arithmetic.start
  Text.lines (heading "Single Steps"
    ++ (history p.program p.store).entries.map fun e => "  " ++ e.state.program.display)

/-- A session that prints its states, and a sentence on how it came out. -/
def session : String :=
  let p := Catalog.increment.start
  Text.lines (heading "Machine")
    ++ (journey p.program p.store).tray.printed
    ++ Text.lines ["  " ++ (history p.program p.store).summary]

def loop : String :=
  let p := Catalog.tripleLoop.start
  let j := journey p.program p.store
  Text.lines (heading "While Loops"
    ++ [(history p.program p.store).chain,
      "  final environment: " ++ j.session.state.store.text])

/-- An assignment and a branch that depends on it. -/
def branching : Term :=
  .seq (.assign "x" (.num 3))
    (.cond (.binary .less (.var "x") (.num 2))
      (.assign "small" (.bool true))
      (.assign "small" (.bool false)))

def branch : String :=
  Text.lines (heading "If and Sequence" ++ [(history branching ∅).verbose])

/-- Two programs that cannot be run to their end. -/
def failing : List Term :=
  [.var "z", .cond (.num 1) (.assign "x" (.num 1)) (.assign "x" (.num 2))]

/-- The line on a program whose run fails. -/
def failure (t : Term) : List String :=
  match (journey t ∅).ending with
  | .stuck f =>
    match f.title? with
    | some title => ["  " ++ t.display ++ ": " ++ title ++ ": " ++ f.message]
    | none => []
  | _ => []

/-- A loop without end, under a limit. -/
def endless : Session := .begin (.loop (.bool true) (.assign "x" (.num 1))) ∅ (some 25)

/-- The line on a run that reached its limit. -/
def limited (m : Session) : List String :=
  match (m.run budget Sink.silent ()).map Report.result with
  | some (.error (.limit n h)) =>
    ["  infinite loop stopped: " ++ (Stop.limit n h).message ++ " ("
      ++ Numeral.write h.size ++ " configurations recorded)"]
  | _ => []

def failures : String :=
  Text.lines (heading "Failures" ++ failing.flatMap failure ++ limited endless)

def all : String :=
  Text.lines ["SMALLSTEP Feature Demonstration"]
    ++ singleSteps ++ session ++ loop ++ branch ++ failures
    ++ Text.lines (heading "Demo complete!")

end Stepwise.Tour
