import Stepwise.Session.Run
import Stepwise.Session.Walker

/-!
# Driving a session by actions

A `Bench` is a session with its sink's tray, the walkers opened on it and the journal
kept so far. Actions change it one after another, in any order; an action that fails
gives its reason as the outcome, and the bench goes on from where it was left.
-/

namespace Stepwise

/-- What can be asked of a bench. -/
inductive Action
  | step
  /-- Run to the end or to the limit. -/
  | run
  | look
  /-- Tell whether the program has a step left. -/
  | canStep
  | display
  /-- Walk with a new walker and keep the first `n` states. -/
  | take (n : Nat)
  | openWalker
  /-- Let the walker with this number show a state. -/
  | advance (i : Nat)
  /-- Put another program in place of the current one. -/
  | setProgram (t : Term)
  /-- Put another limit in place of the current one. -/
  | setLimit (limit : Option Int)
  deriving DecidableEq

/-- What an action gives. -/
inductive Outcome
  | entry (e : Entry)
  | entries (es : List Entry)
  | history (h : History)
  | truth (b : Bool)
  | text (s : String)
  /-- The number of a new walker. -/
  | opened (i : Nat)
  /-- The walker shows nothing more. -/
  | exhausted
  /-- There is no walker of that number. -/
  | noWalker
  /-- It is done, and there is nothing to tell. -/
  | done
  | stopped (s : Stop)
  deriving DecidableEq

/-- The outcome of something that may end in a fault. -/
def Outcome.ofExcept {α : Type} (f : α → Outcome) : Except Fault α → Outcome
  | .ok a => f a
  | .error e => .stopped (.fault e)

/-- A session in use. -/
structure Bench (σ : Type) where
  session : Session
  tray : σ
  /-- The walkers, in the order in which they were opened. -/
  walkers : List Walker
  /-- The records made so far, oldest first. -/
  journal : List Record

namespace Bench

variable {σ : Type}

/-- The bench of a session that nothing has been done with. -/
def ofSession (m : Session) (tray : σ) : Bench σ := ⟨m, tray, [], []⟩

def step (b : Bench σ) : Bench σ × Outcome :=
  match b.session.step with
  | .ok m => ({ b with session := m }, .entry m.entry)
  | .error f => (b, .stopped (.fault f))

def run (fuel : Nat) (sink : Sink σ) (b : Bench σ) : Option (Bench σ × Outcome) :=
  (b.session.run fuel sink b.tray).map fun r =>
    ({ b with session := r.session, tray := r.tray, journal := b.journal ++ r.journal },
      match r.result with
      | .ok h => .history h
      | .error s => .stopped s)

/-- One showing of the walker with number `i`. -/
def advance (i : Nat) (b : Bench σ) : Bench σ × Outcome :=
  match b.walkers[i]? with
  | none => (b, .noWalker)
  | some w =>
    let showing := w.next b.session
    ({ b with session := showing.session, walkers := b.walkers.set i showing.walker },
      .ofExcept (fun shown => shown.elim .exhausted .entry) showing.shown)

/-- Does what an action asks for. Gives nothing only for a run that does not end within
`fuel` steps. -/
def act (fuel : Nat) (sink : Sink σ) (b : Bench σ) : Action → Option (Bench σ × Outcome)
  | .step => some b.step
  | .run => b.run fuel sink
  | .look => some (b, .entry b.session.entry)
  | .canStep => some (b, .ofExcept .truth b.session.canStep)
  | .display => some (b, .text b.session.display)
  | .take n =>
    let walk := b.session.take n
    some ({ b with session := walk.1 }, .ofExcept .entries walk.2)
  | .openWalker => some ({ b with walkers := b.walkers ++ [.fresh] }, .opened b.walkers.length)
  | .advance i => some (b.advance i)
  | .setProgram t =>
    some ({ b with session.state.program := t }, .done)
  | .setLimit limit => some ({ b with session.limit := limit }, .done)

end Bench

end Stepwise
