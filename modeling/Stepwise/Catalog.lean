import Stepwise.State
import Stepwise.Text.Join

/-!
# The catalog of programs

Seven small programs that come with the library, each with a name, a line that says
what it is, and the store in which it starts.
-/

namespace Stepwise

structure Sample where
  name : String
  description : String
  /-- The program and the store in which it starts. -/
  start : State

structure NoSample where
  name : String
  deriving DecidableEq

def NoSample.message (e : NoSample) : String := "No program named '" ++ e.name ++ "'"

namespace Sample

def display (p : Sample) : String := "Program(" ++ Quoted.quote p.name ++ ")"

/-- The program and its store on two lines. -/
def sheet (p : Sample) : String :=
  "program:     " ++ p.start.program.text ++ "\n"
    ++ "environment: " ++ p.start.store.text

end Sample

namespace Catalog

/-- Two products and their sum. -/
def arithmetic : Sample where
  name := "arithmetic"
  description := "1 * 2 + 3 * 4 reduced to a number"
  start := {
    program :=
      .binary .add (.binary .multiply (.num 1) (.num 2)) (.binary .multiply (.num 3) (.num 4))
    store := ∅ }

/-- A sum of two variables. -/
def variableSum : Sample where
  name := "variables"
  description := "x + y with x and y bound"
  start := {
    program := .binary .add (.var "x") (.var "y")
    store := Table.ofList [("x", .num 3), ("y", .num 4)] }

def increment : Sample where
  name := "increment"
  description := "x = x + 1 starting from x = 2"
  start := {
    program := .assign "x" (.binary .add (.var "x") (.num 1))
    store := Table.ofList [("x", .num 2)] }

/-- The loop that triples a variable. -/
def tripling : Term :=
  .loop (.binary .less (.var "x") (.num 5)) (.assign "x" (.binary .multiply (.var "x") (.num 3)))

/-- A loop that goes round twice. -/
def tripleLoop : Sample where
  name := "triple-loop"
  description := "while (x < 5) \x7b x = x * 3 \x7d from x = 1"
  start := { program := tripling, store := Table.ofList [("x", .num 1)] }

/-- A variable that nothing is bound to. -/
def unbound : Sample where
  name := "unbound"
  description := "a variable with no binding (fails)"
  start := { program := .var "z", store := ∅ }

def branch : Sample where
  name := "branch"
  description := "if (x > 2) \x7b y = true \x7d else \x7b do-nothing \x7d"
  start := {
    program :=
      .cond (.binary .greater (.var "x") (.num 2)) (.assign "y" (.bool true)) .skip
    store := Table.ofList [("x", .num 3)] }

/-- Two assignments, the second of which uses the first. -/
def sequence : Sample where
  name := "sequence"
  description := "x = 1 + 1; y = x + 3"
  start := {
    program :=
      .seq (.assign "x" (.binary .add (.num 1) (.num 1)))
        (.assign "y" (.binary .add (.var "x") (.num 3)))
    store := ∅ }

/-- The programs, in the order in which they are listed. -/
def all : List Sample :=
  [arithmetic, variableSum, increment, tripleLoop, unbound, branch, sequence]

def names : List String := all.map Sample.name

def find (name : String) : Except NoSample Sample :=
  match all.find? fun p => p.name = name with
  | some p => .ok p
  | none => .error ⟨name⟩

def width : Nat := (names.map String.length).foldl max 0

/-- One line for each program: its name and its description in columns. -/
def listing : String :=
  Text.joinWith "\n" (all.map fun p => Text.padRight width p.name ++ "  " ++ p.description)

end Catalog

end Stepwise
