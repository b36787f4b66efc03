import Stepwise.Fault

/-!
# Reading and writing a store

A lookup either finds a value or reports the name together with the store. A write is
checked first: the name must be a text and the value must be finished.

A `Draft` is a table of bindings that nobody has checked; `Draft.check` makes a store
of it, or reports the first binding, in the draft's order, that is not allowed.
`Draft.checkWith` does so with further bindings behind those of the draft. The names of
these have to be texts, and two names are reserved.
-/

namespace Stepwise

namespace Store

/-- The value of a name, or the report that the store does not bind it. -/
def lookup (s : Store) (name : Scalar) : Except Fault Value :=
  match s.find? name with
  | some v => .ok v
  | none => .error (.unbound name s)

/-- The value of a name, or the name itself if the store does not bind it. -/
def item (s : Store) (name : Scalar) : Except Scalar Value :=
  match s.find? name with
  | some v => .ok v
  | none => .error name

/-- A binding that a store may hold. -/
def accept (name : Scalar) (t : Term) : Except Fault (String × Value) :=
  match name with
  | .text x =>
    match t.value? with
    | some v => .ok (x, v)
    | none => .error (.valueNotFinished x t)
  | _ => .error (.nameNotText name)

/-- The store with one more binding, or the report why the binding is not allowed. -/
def bind (s : Store) (name : Scalar) (t : Term) : Except Fault Store :=
  (accept name t).map fun p => s.put p.1 p.2

end Store

/-- Bindings whose names and values are still to be checked. -/
abbrev Draft := Table Scalar Term

namespace Draft

/-- Checks the bindings from first to last. -/
def checkAll : List (Scalar × Term) → Except Fault (List (String × Value))
  | [] => .ok []
  | (name, t) :: rest => do
    let p ← Store.accept name t
    let ps ← checkAll rest
    return p :: ps

/-- The store of a draft, or the report about its first inadmissible binding. -/
def check (d : Draft) : Except Fault Store := (checkAll d.entries).map Table.ofList

/-- The names that no further binding may have. -/
def reserved : List String := ["self", "bindings"]

/-- Why a draft and further bindings make no store. -/
inductive Rejection
  | nameNotText
  | nameReserved (name : String)
  | fault (f : Fault)
  deriving DecidableEq

def Rejection.message : Rejection → String
  | nameNotText => "keywords must be strings"
  | nameReserved name =>
    "Environment.__init__() got multiple values for argument '" ++ name ++ "'"
  | fault f => f.message

/-- The names of further bindings, all of which have to be texts. -/
def furtherNames : List (Scalar × Term) → Except Rejection (List String)
  | [] => .ok []
  | (.text x, _) :: rest => (furtherNames rest).map (x :: ·)
  | _ :: _ => .error .nameNotText

/-- The store of a draft and of further bindings behind it. The names of all further
bindings are looked at before anything else. -/
def checkWith (d : Draft) (further : List (Scalar × Term)) : Except Rejection Store :=
  match furtherNames further with
  | .error r => .error r
  | .ok names =>
    match names.find? (reserved.contains ·) with
    | some name => .error (.nameReserved name)
    | none => (check (d.putAll further)).mapError .fault

def ofStore (s : Store) : Draft :=
  Table.ofList (s.entries.map fun p => (.text p.1, p.2.term))

theorem entries_ofStore (s : Store) :
    (ofStore s).entries = s.entries.map fun p => (.text p.1, p.2.term) := by
  have hkeys : Pairs.keys (s.entries.map fun p => (Scalar.text p.1, p.2.term))
      = (Pairs.keys s.entries).map Scalar.text := by
    simp [Pairs.keys, Function.comp_def]
  apply Table.entries_ofList
  rw [hkeys]
  -- Names that differ are texts that differ.
  exact List.Pairwise.map Scalar.text (fun x y hxy => mt Scalar.text.inj hxy) s.nodup

theorem checkAll_values (pairs : List (String × Value)) :
    checkAll (pairs.map fun p => (.text p.1, p.2.term)) = .ok pairs := by
  induction pairs with
  | nil => rfl
  | cons p pairs ih =>
    simp [checkAll, ih, Store.accept, bind, Except.bind, pure, Except.pure]

/-- **The bindings of a store are allowed**, and the check gives the store back. -/
theorem check_ofStore (s : Store) : (ofStore s).check = .ok s := by
  rw [check, entries_ofStore, checkAll_values]
  exact congrArg Except.ok (Table.ofList_entries s)

end Draft

/-- Whether a store holds exactly the bindings of a draft, in any order. -/
def Store.matches (s : Store) (d : Draft) : Bool := (Draft.ofStore s).agrees d

end Stepwise
