import Stepwise.Catalog
import Stepwise.Command.Reading
import Stepwise.History.Document
import Stepwise.Session.Run
import Stepwise.Text.Upper

/-!
# Answering a command line

The answer to a command line is an exit code with what goes to the two output streams.
The code is 0 if the request was met, 1 if a program could not be run to its end, and 2
if the command line makes no sense or names no program of the catalog.

Records are shown on the error stream from a chosen severity upwards: the one given by a
flag, else the one given by the environment, else `WARNING`. The severity is looked up
once the words have been read, and before anything is done.

Some faults are not answered at all, and the answering is broken off (`Abort`): a severity
that does not exist, and a blank for a format or a limit at the moment it is needed.
-/

namespace Stepwise.Command

/-- The answer to a command line. -/
structure Reply where
  code : Nat
  out : String
  /-- What is printed to the error stream. -/
  err : String
  deriving DecidableEq

def version : String := "0.1.0"

/-- The name of the severity that is in force: the one given if it is not empty, else
that of the environment, in upper case. -/
def levelName (given ambient : Option String) : String :=
  Upper.ofString
    (match given with
     | some "" | none => ambient.getD "WARNING"
     | some level => level)

/-- Why an answer is broken off. -/
inductive Abort
  /-- There is no severity of the name that is in force. -/
  | unknownLevel (u : UnknownLevel)
  /-- A history is to be printed in a blank format. -/
  | blankFormat
  /-- A run is to be started with a blank limit. -/
  | blankLimit
  deriving DecidableEq

def Abort.message : Abort → String
  | unknownLevel u => u.message
  | blankFormat => (HistoryError.unknownStyle "[]").message
  | blankLimit => "'<' not supported between instances of 'list' and 'int'"

def End.reply : End → Reply
  | .help p => ⟨0, p.help, ""⟩
  | .version => ⟨0, "smallstep " ++ Command.version ++ "\n", ""⟩
  | .misuse p m =>
    ⟨2, "", Text.lines (p.usage ++ [p.caller ++ ": error: " ++ m.message])⟩

/-- The answer to the name of a program that the catalog does not have. -/
def unknownProgram (name : String) : Reply :=
  ⟨2, "", "Unknown program: " ++ name ++ ". Available: "
    ++ Text.joinWith ", " Catalog.names ++ "\n"⟩

def Format.write (h : History) : Format → String
  | .style s => h.write s
  | .json => h.json (some 2)

/-- The format in force: the one given, else `lines`. -/
def formatInForce : Given Format → Except Abort Format
  | .absent => .ok (.style .lines)
  | .blank => .error .blankFormat
  | .value format => .ok format

/-- What is printed of a run: the history, or what there is of it when the limit was
reached. A history cut short has no JSON form. -/
def printed (given : Given Format) : Except Stop History → Except Abort String
  | .ok h => (formatInForce given).map fun format => format.write h ++ "\n"
  | .error (.limit _ h) =>
    (formatInForce given).map fun format =>
      if format = .json then "" else format.write h ++ "\n"
  | .error _ => .ok ""

/-- The complaint about a run that gave no history. -/
def complaint : Except Stop History → List String
  | .ok _ => []
  | .error s => ["Error: " ++ s.message]

def runCode : Except Stop History → Nat
  | .ok _ => 0
  | .error _ => 1

def limitText : Option Nat → String
  | some n => Numeral.write n
  | none => "None"

/-- The record that a run is asked for. -/
def runRecord (name : String) (limit : Option Nat) : Record :=
  ⟨.info, "smallstep.cli", "cli.run program=" ++ name ++ " max_steps=" ++ limitText limit⟩

/-- Runs a program of the catalog. Without a limit, gives an answer only if the run ends
within `fuel` steps. -/
def runSample (fuel : Nat) (threshold : Severity) (p : Sample) (format : Given Format)
    (limit : Option Nat) : Option (Except Abort Reply) :=
  let m := Session.begin p.start.program p.start.store (limit.map Int.ofNat)
  (m.run fuel Sink.silent ()).map fun r =>
    let journal := Record.readFrom threshold (runRecord p.name limit :: r.journal)
    (printed format r.result).map fun out =>
      ⟨runCode r.result, out, Text.lines (journal.map Record.line ++ complaint r.result)⟩

def perform (fuel : Nat) (threshold : Severity) : Task → Option (Except Abort Reply)
  | .nothing => some (.ok ⟨2, Page.main.help, ""⟩)
  | .list => some (.ok ⟨0, Catalog.listing ++ "\n", ""⟩)
  | .display name =>
    match Catalog.find name with
    | .ok p => some (.ok ⟨0, p.sheet ++ "\n", ""⟩)
    | .error _ => some (.ok (unknownProgram name))
  | .run name format limit =>
    match Catalog.find name with
    | .error _ => some (.ok (unknownProgram name))
    | .ok p =>
      match limit with
      | .blank => some (.error .blankLimit)
      | _ => runSample fuel threshold p format limit.toOption

/-- Answers a command line. `ambient` is the severity that the environment names. -/
def answer (fuel : Nat) (ambient : Option String) (words : List String) :
    Option (Except Abort Reply) :=
  match read words with
  | .error e => some (.ok e.reply)
  | .ok request =>
    match Severity.ofName (levelName request.level.toOption ambient) with
    | .error u => some (.error (.unknownLevel u))
    | .ok threshold => perform fuel threshold request.task

end Stepwise.Command
