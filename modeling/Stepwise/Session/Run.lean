import Stepwise.Session.Basic
import Stepwise.Session.Sink
import Stepwise.History.Style

/-!
# Runs

A run steps a session until its program is finished. Every state is recorded and
offered to the sink BEFORE the step that leaves it, and the last state is recorded once
at the end. A run under a limit of `n` steps stops in the state after `n` steps if that
has another step left; the state is recorded all the same.

`travel` is the loop, with a budget of steps. `run` takes the session's limit for the
budget. Without a limit the budget is the caller's, and a run that has spent it gives
no report.

The journal of a run opens with a record of its start and closes with one of its end,
unless the run was ended by the sink or by a program that is no term.
-/

namespace Stepwise

/-- How a journey comes to its end. -/
inductive Ending
  | finished
  /-- The budget is spent and the program has a step left. -/
  | spent
  | stuck (f : Fault)
  /-- The program is no term any more. -/
  | strayed (f : Fault)
  | refused (r : Refusal)
  deriving DecidableEq

/-- What a journey leaves behind. -/
structure Journey (σ : Type) where
  /-- The states recorded, oldest first. -/
  visited : List Entry
  session : Session
  tray : σ
  records : List Record
  ending : Ending

/-- A journey with one more state at its front. -/
def Journey.after {σ : Type} (e : Entry) (records : List Record) (j : Journey σ) :
    Journey σ :=
  { j with visited := e :: j.visited, records := records ++ j.records }

/-- Why a run gives no history. -/
inductive Stop
  /-- The limit was reached; what was recorded until then is kept. -/
  | limit (n : Int) (history : History)
  /-- A step failed, or the program is no term any more. -/
  | fault (f : Fault)
  | refused (r : Refusal)
  deriving DecidableEq

def Stop.message : Stop → String
  | limit n _ => "Program still reducible after " ++ Numeral.write n ++ " steps"
  | fault f => f.message
  | refused r => r.message

structure Report (σ : Type) where
  /-- The history, or why there is none. -/
  result : Except Stop History
  session : Session
  tray : σ
  journal : List Record

namespace Session

variable {σ : Type}

/-- Steps a session until its program is finished, at most `budget` times. -/
def travel (sink : Sink σ) (budget : Nat) (m : Session) (tray : σ) : Journey σ :=
  match m.canStep with
  | .error f => ⟨[], m, tray, [], .strayed f⟩
  | .ok more =>
    let reception := sink.offer m.entry.texts tray
    match reception.refusal with
    | some r => ⟨[m.entry], m, reception.tray, reception.records, .refused r⟩
    | none =>
      if more then
        match budget with
        | 0 => ⟨[m.entry], m, reception.tray, reception.records, .spent⟩
        | budget + 1 =>
          match m.step with
          | .error f => ⟨[m.entry], m, reception.tray, reception.records, .stuck f⟩
          | .ok m' =>
            (travel sink budget m' reception.tray).after m.entry reception.records
      else ⟨[m.entry], m, reception.tray, reception.records, .finished⟩

/-- The budget of a run: the limit, or `fuel` if there is none. -/
def budget (fuel : Nat) : Option Int → Nat
  | some n => n.toNat
  | none => fuel

/-- The part of the program that makes the records of runs. -/
def origin : String := "smallstep.machine"

def startRecord (m : Session) : Record :=
  ⟨.debug, origin, "machine.run.started program=" ++ m.state.program.text
    ++ " environment=" ++ m.state.store.text⟩

def finishRecord (h : History) (last : Session) : Record :=
  ⟨.debug, origin, "machine.run.finished steps=" ++ Numeral.write h.stepCount
    ++ " final=" ++ last.state.text⟩

def limitRecord (n : Int) (last : Session) : Record :=
  ⟨.warning, origin, "machine.run.step_limit limit=" ++ Numeral.write n
    ++ " program=" ++ last.state.program.text⟩

def failRecord (f : Fault) (last : Session) : Record :=
  ⟨.debug, origin, "machine.run.failed steps=" ++ Numeral.write last.taken
    ++ " error=" ++ f.message⟩

/-- The result of a journey under a limit and the records that close its journal. -/
def conclude (limit : Option Int) (j : Journey σ) :
    Option (Except Stop History × List Record) :=
  let h : History := ⟨j.visited⟩
  match j.ending, limit with
  | .finished, _ => some (.ok h, [finishRecord h j.session])
  | .spent, some n => some (.error (.limit n h), [limitRecord n j.session])
  | .spent, none => none
  | .stuck f, _ => some (.error (.fault f), [failRecord f j.session])
  | .strayed f, _ => some (.error (.fault f), [])
  | .refused r, _ => some (.error (.refused r), [])

/-- Runs a session until its program is finished or its limit is reached. Without a
limit, gives a report only if the run ends within `fuel` steps. -/
def run (fuel : Nat) (sink : Sink σ) (m : Session) (tray : σ) : Option (Report σ) :=
  let j := travel sink (budget fuel m.limit) m tray
  (conclude m.limit j).map fun c =>
    ⟨c.1, j.session, j.tray, startRecord m :: j.records ++ c.2⟩

end Session

end Stepwise
