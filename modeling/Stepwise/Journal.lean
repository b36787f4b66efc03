import Stepwise.Text.Join

/-!
# Journals

Sessions and the command line report what they do as `Record`s. A record has a
`Severity`; a journal is a list of records in the order in which they were made, and is
read from a chosen severity upwards.
-/

namespace Stepwise

/-- How grave a record is, from the slightest to the gravest. -/
inductive Severity
  | trace
  | debug
  | info
  | success
  | warning
  | error
  | critical
  deriving DecidableEq, Inhabited, Repr

namespace Severity

/-- The place of a severity on the scale. -/
def rank : Severity → Nat
  | trace => 5
  | debug => 10
  | info => 20
  | success => 25
  | warning => 30
  | error => 40
  | critical => 50

def name : Severity → String
  | trace => "TRACE"
  | debug => "DEBUG"
  | info => "INFO"
  | success => "SUCCESS"
  | warning => "WARNING"
  | error => "ERROR"
  | critical => "CRITICAL"

def all : List Severity := [trace, debug, info, success, warning, error, critical]

end Severity

/-- The report that there is no severity of a given name. -/
structure UnknownLevel where
  name : String
  deriving DecidableEq

def UnknownLevel.message (u : UnknownLevel) : String :=
  "Level '" ++ u.name ++ "' does not exist"

/-- The severity of a given name, which has to be spelled exactly. -/
def Severity.ofName (name : String) : Except UnknownLevel Severity :=
  match Severity.all.find? fun v => v.name = name with
  | some v => .ok v
  | none => .error ⟨name⟩

structure Record where
  severity : Severity
  /-- The part of the program that made the record. -/
  origin : String
  message : String
  deriving DecidableEq

namespace Record

/-- A record as a line: severity, origin, message. The place in the source text at which the
record was made is not told. -/
def line (r : Record) : String :=
  Text.padRight 8 r.severity.name ++ " | " ++ r.origin ++ " | " ++ r.message

end Record

/-- The records of a journal that are at least as grave as `threshold`. -/
def Record.readFrom (threshold : Severity) (journal : List Record) : List Record :=
  journal.filter fun r => threshold.rank ≤ r.severity.rank

end Stepwise
