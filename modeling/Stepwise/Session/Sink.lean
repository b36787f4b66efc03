import Stepwise.Journal

/-!
# Sinks

A run offers every state that it records to a `Sink`, as the pair of the texts of
program and store. What a sink gathers is its tray; it may also make records of its own,
and it may refuse, which ends the run at once. It has no hold on the session that makes
the offers.
-/

namespace Stepwise

/-- Why a sink refuses. -/
inductive Refusal
  /-- It was told to make records of a severity that does not exist. -/
  | unknownLevel (u : UnknownLevel)
  | failed
  deriving DecidableEq

def Refusal.message : Refusal → String
  | unknownLevel u => u.message
  | failed => "sink failed"

/-- What a sink makes of one offer. -/
structure Reception (σ : Type) where
  tray : σ
  records : List Record
  refusal : Option Refusal

/-- A receiver of recorded states, with trays of type `σ`. -/
structure Sink (σ : Type) where
  /-- Takes the texts of a program and a store. -/
  offer : String × String → σ → Reception σ

/-- The tray of the sinks that gather something. -/
structure Tray where
  /-- The pairs taken, oldest first. -/
  collected : List (String × String)
  printed : String
  deriving DecidableEq

def Tray.empty : Tray := ⟨[], ""⟩

namespace Sink

variable {σ : Type}

/-- Takes everything and keeps nothing. -/
def silent : Sink σ := ⟨fun _ tray => ⟨tray, [], none⟩⟩

def collect : Sink Tray :=
  ⟨fun pair tray => ⟨{ tray with collected := tray.collected ++ [pair] }, [], none⟩⟩

/-- Prints every pair on a line of its own. -/
def print : Sink Tray :=
  ⟨fun pair tray =>
    ⟨{ tray with printed := tray.printed ++ pair.1 ++ ", " ++ pair.2 ++ "\n" }, [], none⟩⟩

/-- Makes a record of every pair with the severity of the given name, if the journal is
kept at all; refuses if there is no such severity. -/
def record (kept : Bool) (level : String) : Sink σ :=
  ⟨fun pair tray =>
    if !kept then ⟨tray, [], none⟩
    else
      match Severity.ofName level with
      | .error u => ⟨tray, [], some (.unknownLevel u)⟩
      | .ok severity =>
        ⟨tray,
          [⟨severity, "smallstep.trace",
            "trace.configuration program=" ++ pair.1 ++ " environment=" ++ pair.2⟩],
          none⟩⟩

/-- Keeps `k` pairs and refuses every further one. -/
def failing (k : Nat) : Sink Tray :=
  ⟨fun pair tray =>
    if k ≤ tray.collected.length then ⟨tray, [], some .failed⟩
    else ⟨{ tray with collected := tray.collected ++ [pair] }, [], none⟩⟩

end Sink

end Stepwise
