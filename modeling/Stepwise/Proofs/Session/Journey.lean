import Stepwise.Proofs.Reduction.After
import Stepwise.Session.Run

/-!
# Where a journey leads

The states that follow a session's state are given by `State.after`, and nothing that a
session does leads anywhere else. A step moves to the next of them (`step_eq_ok_iff`). A
journey, with any sink and any budget, stops at one of them; it has recorded those on
its way, each once, in order and with its number; and its ending says why it stopped
there (`travel_reaches`).
-/

namespace Stepwise.Session

variable {σ : Type} {m m' : Session} {st st' : State} {k n : Nat} {es : List Entry}

/-- The session `k` steps later, in the state `st`. -/
def moved (m : Session) (k : Nat) (st : State) : Session :=
  { m with state := st, taken := m.taken + k }

/-- The entries show the first `n` states from the session on, in order, each with its
number. -/
def Records (m : Session) (n : Nat) (es : List Entry) : Prop :=
  es.length = n ∧
    ∀ (i : Nat) (e : Entry), es[i]? = some e →
      e.index = ((m.taken + i : Nat) : Int) ∧ State.after i m.state = .ok e.state

/-! ## One step -/

theorem moved_inj : m.moved n st = m.moved k st' ↔ n = k ∧ st = st' := by
  simp [moved, and_comm]

theorem moved_moved (m : Session) (j k : Nat) (st st' : State) :
    (m.moved j st).moved k st' = m.moved (j + k) st' := by
  simp [moved, Nat.add_assoc]

/-- A session steps exactly when its state does. -/
theorem step_eq_ok_iff : m.step = .ok m' ↔ ∃ st, m.state.step = .ok st ∧ m' = m.moved 1 st := by
  constructor
  · intro h
    rw [step] at h
    split at h
    · cases h
    · cases h
    · obtain ⟨st, hst, rfl⟩ := map_eq_ok_iff.1 h
      exact ⟨st, hst, rfl⟩
  · intro h
    obtain ⟨st, hst, rfl⟩ := h
    have hc : m.canStep = .ok true := State.canStep_of_step hst
    rw [step, hc, hst]
    rfl

/-- A program with a step left fails as its state does. -/
theorem step_eq_error_iff {f : Fault} (hc : m.canStep = .ok true) :
    m.step = .error f ↔ m.state.step = .error f := by
  rw [step, hc]
  exact map_eq_error_iff

/-! ## Records -/

theorem Records.nil (m : Session) : m.Records 0 [] :=
  ⟨rfl, fun i e h => by simp at h⟩

theorem Records.singleton (m : Session) : m.Records 1 [m.entry] := by
  refine ⟨rfl, ?_⟩
  intro i e h
  cases i with
  | zero => cases h; exact ⟨rfl, rfl⟩
  | succ i => simp at h

/-- What the next session records comes after the session's own entry. -/
theorem Records.cons (hst : m.state.step = .ok st) (h : (m.moved 1 st).Records n es) :
    m.Records (n + 1) (m.entry :: es) := by
  refine ⟨congrArg (· + 1) h.1, ?_⟩
  intro i e hi
  cases i with
  | zero => cases hi; exact ⟨rfl, rfl⟩
  | succ i =>
    obtain ⟨hindex, hafter⟩ := h.2 i e hi
    refine ⟨?_, (State.after_succ_of_step hst).trans hafter⟩
    rw [hindex, moved, Nat.add_right_comm, Nat.add_assoc]

/-- Every state on the way can be recorded. -/
theorem Records.of_after (h : State.after n m.state = .ok st) : ∃ es, m.Records (n + 1) es := by
  induction n generalizing m with
  | zero => exact ⟨_, .singleton m⟩
  | succ n ih =>
    cases hs : m.state.step with
    | error f =>
      rw [State.after_succ_of_error hs] at h
      cases h
    | ok st₁ =>
      rw [State.after_succ_of_step hs] at h
      obtain ⟨es, hes⟩ := ih (m := m.moved 1 st₁) h
      exact ⟨_, .cons hs hes⟩

/-- The last of the entries shows the state at the end. -/
theorem Records.getLast? (h : m.Records (n + 1) es) (ha : State.after n m.state = .ok st) :
    es.getLast? = some ⟨(m.taken + n : Nat), st⟩ := by
  have hn : n < es.length := by rw [h.1]; exact Nat.lt_succ_self n
  obtain ⟨hindex, hafter⟩ := h.2 n es[n] (List.getElem?_eq_getElem hn)
  have hstate : es[n].state = st := Except.ok.inj (hafter.symm.trans ha)
  rw [List.getLast?_eq_getElem?, h.1, Nat.add_sub_cancel, List.getElem?_eq_getElem hn,
    ← hindex, ← hstate]

/-- The states shown determine the entries. -/
theorem Records.unique {es' : List Entry} (h : m.Records n es) (h' : m.Records n es') :
    es = es' := by
  apply List.ext_getElem (h.1.trans h'.1.symm)
  intro i hi hi'
  obtain ⟨hx, ha⟩ := h.2 i es[i] (List.getElem?_eq_getElem hi)
  obtain ⟨hx', ha'⟩ := h'.2 i es'[i] (List.getElem?_eq_getElem hi')
  have hindex : es[i].index = es'[i].index := hx.trans hx'.symm
  have hstate : es[i].state = es'[i].state := Except.ok.inj (ha.symm.trans ha')
  cases he : es[i]
  cases he' : es'[i]
  simp_all

/-! ## Journeys -/

/-- What an ending says about the state `st` reached after `k` steps, and about the
entries recorded on the way. -/
def Reached (m : Session) (budget k : Nat) (st : State) (es : List Entry) : Ending → Prop
  | .finished => st.program.canStep = .ok false ∧ m.Records (k + 1) es
  | .spent => k = budget ∧ st.program.canStep = .ok true ∧ m.Records (k + 1) es
  | .stuck f =>
    k < budget ∧ st.program.canStep = .ok true ∧ st.step = .error f ∧ m.Records (k + 1) es
  | .strayed f => st.program.canStep = .error f ∧ m.Records k es
  | .refused _ => m.Records (k + 1) es

theorem Reached.cons {budget : Nat} {e : Ending}
    (hst : m.state.step = .ok st) (h : (m.moved 1 st).Reached budget k st' es e) :
    m.Reached (budget + 1) (k + 1) st' (m.entry :: es) e := by
  cases e with
  | finished => exact ⟨h.1, .cons hst h.2⟩
  | spent => exact ⟨congrArg (· + 1) h.1, h.2.1, .cons hst h.2.2⟩
  | stuck f => exact ⟨Nat.succ_lt_succ h.1, h.2.1, h.2.2.1, .cons hst h.2.2.2⟩
  | strayed f => exact ⟨h.1, .cons hst h.2⟩
  | refused r => exact Records.cons hst h

/-- **A journey goes along the states that follow**, and its ending says why it stops. -/
theorem travel_reaches (sink : Sink σ) (budget : Nat) (m : Session) (tray : σ) :
    ∃ k st, k ≤ budget ∧ State.after k m.state = .ok st ∧
      (travel sink budget m tray).session = m.moved k st ∧
      m.Reached budget k st (travel sink budget m tray).visited
        (travel sink budget m tray).ending := by
  -- The rest of a journey is a journey of the next session, with the tray as it is then.
  induction budget generalizing m tray with
  | zero =>
    refine ⟨0, m.state, Nat.le_refl 0, rfl, ?_⟩
    rw [travel]
    cases hc : m.canStep with
    | error f => exact ⟨rfl, hc, .nil m⟩
    | ok more =>
      simp only
      split
      · exact ⟨rfl, .singleton m⟩
      · cases more with
        | true => exact ⟨rfl, rfl, hc, .singleton m⟩
        | false => exact ⟨rfl, hc, .singleton m⟩
  | succ budget ih =>
    rw [travel]
    cases hc : m.canStep with
    | error f => exact ⟨0, m.state, Nat.zero_le _, rfl, rfl, hc, .nil m⟩
    | ok more =>
      simp only
      split
      · exact ⟨0, m.state, Nat.zero_le _, rfl, rfl, .singleton m⟩
      · cases more with
        | false => exact ⟨0, m.state, Nat.zero_le _, rfl, rfl, hc, .singleton m⟩
        | true =>
          cases hs : m.step with
          | error f =>
            exact ⟨0, m.state, Nat.zero_le _, rfl, rfl, Nat.succ_pos _, hc,
              (step_eq_error_iff hc).1 hs, .singleton m⟩
          | ok m' =>
            obtain ⟨st, hst, rfl⟩ := step_eq_ok_iff.1 hs
            obtain ⟨k, st', hk, ha, hm, hr⟩ :=
              ih (m.moved 1 st) (sink.offer m.entry.texts tray).tray
            refine ⟨k + 1, st', Nat.succ_le_succ hk, ?_, ?_, .cons hst hr⟩
            · exact (State.after_succ_of_step hst).trans ha
            · rw [Nat.add_comm k 1, ← moved_moved]
              exact hm

end Stepwise.Session
