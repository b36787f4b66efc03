import Stepwise.Proofs.Reduction.Proper

/-!
# Running a statement as a whole

`Runs t s n r` runs a statement to its end in one judgment, without intermediate
programs: from the store `s` the statement `t` takes `n` steps and either finishes in a
store or fails. The steps of the conditions and of the assigned expressions are counted
by their operations, and by their effort where they fail.

Main statement: `runs_iff_after`. The judgment holds exactly when `n` steps of reduction
lead to a state that concludes with the same result.
-/

namespace Stepwise

open Term

/-- `Runs t s n r`: from the store `s`, the statement `t` comes to the result `r`, a store
or a fault, in `n` steps. -/
inductive Runs : Term → Store → Nat → Except Fault Store → Prop
  | skip {s} : Runs .skip s 0 (.ok s)
  /-- The expression has a value, which the name is bound to. -/
  | assign {x e s} {v : Value} : e.value s = .ok v.term →
      Runs (.assign x e) s (e.operations + 1) (.ok (s.put x v))
  | assignFault {x e s f} : e.value s = .error f →
      Runs (.assign x e) s (e.effort s) (.error f)
  /-- The branch that the condition chooses, whatever comes of it. -/
  | cond {c a b s p n r} : c.value s = .ok (.bool p) → Runs (if p then a else b) s n r →
      Runs (.cond c a b) s (c.operations + 1 + n) r
  | condFault {c a b s f} : c.value s = .error f →
      Runs (.cond c a b) s (c.effort s) (.error f)
  /-- The condition has a value, but no truth value. -/
  | condOther {c a b s v} : c.value s = .ok v → (∀ p, v ≠ .bool p) →
      Runs (.cond c a b) s c.operations (.error (.conditionNotTruth v))
  | seq {a b s m s₁ n r} : Runs a s m (.ok s₁) → Runs b s₁ n r →
      Runs (.seq a b) s (m + 1 + n) r
  | seqFault {a b s m f} : Runs a s m (.error f) → Runs (.seq a b) s m (.error f)
  | loopDone {c b s} : c.value s = .ok (.bool false) →
      Runs (.loop c b) s (1 + c.operations + 1) (.ok s)
  /-- The body once, then the loop again, whatever comes of it. -/
  | loopAgain {c b s m s₁ n r} : c.value s = .ok (.bool true) → Runs b s m (.ok s₁) →
      Runs (.loop c b) s₁ n r →
      Runs (.loop c b) s (1 + c.operations + 1 + m + 1 + n) r
  | loopBodyFault {c b s m f} : c.value s = .ok (.bool true) → Runs b s m (.error f) →
      Runs (.loop c b) s (1 + c.operations + 1 + m) (.error f)
  | loopFault {c b s f} : c.value s = .error f →
      Runs (.loop c b) s (1 + c.effort s) (.error f)
  | loopOther {c b s v} : c.value s = .ok v → (∀ p, v ≠ .bool p) →
      Runs (.loop c b) s (1 + c.operations) (.error (.conditionNotTruth v))

/-! ## The judgment and one step -/

variable {s : Store} {n : Nat} {r : Except Fault Store}

theorem runs_skip : Runs .skip s n r ↔ n = 0 ∧ r = .ok s := by
  constructor
  · intro h
    cases h
    exact ⟨rfl, rfl⟩
  · intro h
    obtain ⟨rfl, rfl⟩ := h
    exact .skip

theorem Runs.cost {t : Term} {m : Nat} (h : Runs t s m r) (hn : n = m) : Runs t s n r :=
  hn ▸ h

/-- A step leads to a state with the same result and one step less to take; where a step
fails, its fault is the result. -/
def Unfolds (t : Term) (s : Store) : Except Fault State → Prop
  | .ok st => ∀ n r, Runs t s n r ↔ ∃ m, n = m + 1 ∧ Runs st.program st.store m r
  | .error f => ∀ n r, Runs t s n r ↔ n = 0 ∧ r = .error f

theorem unfolds_assign {x : String} {e : Term} (he : ProperExpression e) :
    Unfolds (.assign x e) s (State.step ⟨.assign x e, s⟩) := by
  cases he.progress s with
  | finished v hv =>
    subst hv
    rw [State.step_assign_term]
    have hval : v.term.value s = .ok v.term := value_term s v
    have hops : v.term.operations = 0 := operations_of_finished (canStep_term v)
    intro n r
    constructor
    · intro h
      cases h with
      | @assign _ _ _ w hw =>
        rw [hval] at hw
        have hvw : v = w := by
          rw [← Option.some.injEq, ← value?_term v, ← value?_term w, Except.ok.inj hw]
        subst hvw
        exact ⟨0, by rw [hops], .skip⟩
      | assignFault hf => rw [hval] at hf; cases hf
    · intro h
      obtain ⟨m, rfl, h⟩ := h
      obtain ⟨rfl, rfl⟩ := runs_skip.1 h
      exact (Runs.assign hval).cost (by rw [hops])
  | steps hc hs he' hv heff hop =>
    rw [State.step_assign hc, hs]
    intro n r
    constructor
    · intro h
      cases h with
      | assign hw => exact ⟨_, by rw [hop], .assign (hv.trans hw)⟩
      | assignFault hf => exact ⟨_, heff, .assignFault (hv.trans hf)⟩
    · intro h
      obtain ⟨m, rfl, h⟩ := h
      cases h with
      | assign hw => exact (Runs.assign (hv.symm.trans hw)).cost (by rw [hop])
      | assignFault hf => exact (Runs.assignFault (hv.symm.trans hf)).cost heff.symm
  | fails hc hs hv heff =>
    rw [State.step_assign hc, hs]
    intro n r
    constructor
    · intro h
      cases h with
      | assign hw => rw [hv] at hw; cases hw
      | assignFault hf =>
        rw [hv] at hf
        cases hf
        exact ⟨heff, rfl⟩
    · intro h
      obtain ⟨rfl, rfl⟩ := h
      exact (Runs.assignFault hv).cost heff.symm

theorem unfolds_cond {c a b : Term} (hc : ProperExpression c) :
    Unfolds (.cond c a b) s (State.step ⟨.cond c a b, s⟩) := by
  cases hc.progress s with
  | finished v hv =>
    subst hv
    have hval : v.term.value s = .ok v.term := value_term s v
    have hops : v.term.operations = 0 := operations_of_finished (canStep_term v)
    cases v with
    | num k =>
      have hnot : ∀ p, (Value.num k).term ≠ .bool p := nofun
      rw [State.step_cond_other rfl hnot]
      intro n r
      constructor
      · intro h
        cases h with
        | cond hp _ => cases hp
        | condFault hf => cases hf
        | condOther hv _ =>
          cases hv
          exact ⟨hops, rfl⟩
      · intro h
        obtain ⟨rfl, rfl⟩ := h
        exact .condOther hval hnot
    | bool p =>
      rw [show (Value.bool p).term = .bool p from rfl, State.step_cond_bool]
      intro n r
      constructor
      · intro h
        cases h with
        | cond hp h =>
          cases hp
          exact ⟨_, by simp only [operations]; omega, h⟩
        | condFault hf => cases hf
        | condOther hv hp =>
          cases hv
          exact absurd rfl (hp p)
      · intro h
        obtain ⟨m, rfl, h⟩ := h
        exact (Runs.cond rfl h).cost (by simp only [operations]; omega)
  | steps hcs hs hc' hv heff hop =>
    rw [State.step_cond hcs, hs]
    intro n r
    constructor
    · intro h
      cases h with
      | cond hp h => exact ⟨_, by rw [hop]; omega, .cond (hv.trans hp) h⟩
      | condFault hf => exact ⟨_, heff, .condFault (hv.trans hf)⟩
      | condOther hw hp => exact ⟨_, hop, .condOther (hv.trans hw) hp⟩
    · intro h
      obtain ⟨m, rfl, h⟩ := h
      cases h with
      | cond hp h => exact (Runs.cond (hv.symm.trans hp) h).cost (by omega)
      | condFault hf => exact (Runs.condFault (hv.symm.trans hf)).cost heff.symm
      | condOther hw hp => exact (Runs.condOther (hv.symm.trans hw) hp).cost hop.symm
  | fails hcs hs hv heff =>
    rw [State.step_cond hcs, hs]
    intro n r
    constructor
    · intro h
      cases h with
      | cond hp _ => rw [hv] at hp; cases hp
      | condFault hf =>
        rw [hv] at hf
        cases hf
        exact ⟨heff, rfl⟩
      | condOther hw _ => rw [hv] at hw; cases hw
    · intro h
      obtain ⟨rfl, rfl⟩ := h
      exact (Runs.condFault hv).cost heff.symm

theorem unfolds_seq {a b : Term} (ha : ProperStatement a)
    (ih : a ≠ .skip → Unfolds a s (State.step ⟨a, s⟩)) :
    Unfolds (.seq a b) s (State.step ⟨.seq a b, s⟩) := by
  by_cases hs : a = .skip
  · subst hs
    rw [State.step_seq_skip]
    intro n r
    constructor
    · intro h
      cases h with
      | seq ha hb =>
        obtain ⟨rfl, hs⟩ := runs_skip.1 ha
        cases hs
        exact ⟨_, by omega, hb⟩
      | seqFault ha => cases (runs_skip.1 ha).2
    · intro h
      obtain ⟨m, rfl, h⟩ := h
      exact (Runs.seq .skip h).cost (by omega)
  · specialize ih hs
    rw [State.step_seq ha.isStatement hs]
    cases hst : State.step ⟨a, s⟩ with
    | ok st =>
      rw [hst] at ih
      intro n r
      constructor
      · intro h
        cases h with
        | seq ha hb =>
          obtain ⟨m, rfl, ha'⟩ := (ih _ _).1 ha
          exact ⟨_, by omega, .seq ha' hb⟩
        | seqFault ha =>
          obtain ⟨m, rfl, ha'⟩ := (ih _ _).1 ha
          exact ⟨m, rfl, .seqFault ha'⟩
      · intro h
        obtain ⟨m, rfl, h⟩ := h
        cases h with
        | seq ha hb => exact (Runs.seq ((ih _ _).2 ⟨_, rfl, ha⟩) hb).cost (by omega)
        | seqFault ha => exact .seqFault ((ih _ _).2 ⟨m, rfl, ha⟩)
    | error f =>
      rw [hst] at ih
      intro n r
      constructor
      · intro h
        cases h with
        | seq ha _ => cases ((ih _ _).1 ha).2
        | seqFault ha => exact (ih _ _).1 ha
      · intro h
        obtain ⟨rfl, rfl⟩ := h
        exact .seqFault ((ih _ _).2 ⟨rfl, rfl⟩)

/-- A loop runs as the conditional does that it becomes. -/
theorem unfolds_loop {c b : Term} : Unfolds (.loop c b) s (State.step ⟨.loop c b, s⟩) := by
  rw [State.step_loop]
  -- Each rule for the loop is a rule for the conditional that it becomes, with the rule
  -- for the sequence of body and loop below it.
  intro n r
  constructor
  · intro h
    cases h with
    | loopDone hp => exact ⟨_, by omega, .cond hp .skip⟩
    | loopAgain hp hb hl => exact ⟨_, by omega, .cond hp (.seq hb hl)⟩
    | loopBodyFault hp hb => exact ⟨_, by omega, .cond hp (.seqFault hb)⟩
    | loopFault hf => exact ⟨_, Nat.add_comm _ _, .condFault hf⟩
    | loopOther hv hp => exact ⟨_, Nat.add_comm _ _, .condOther hv hp⟩
  · intro h
    obtain ⟨m, rfl, h⟩ := h
    cases h with
    | @cond _ _ _ _ p _ _ hp h =>
      cases p with
      | true =>
        cases h with
        | seq hb hl => exact (Runs.loopAgain hp hb hl).cost (by omega)
        | seqFault hb => exact (Runs.loopBodyFault hp hb).cost (by omega)
      | false =>
        obtain ⟨rfl, rfl⟩ := runs_skip.1 h
        exact (Runs.loopDone hp).cost (by omega)
    | condFault hf => exact (Runs.loopFault hf).cost (Nat.add_comm _ _)
    | condOther hv hp => exact (Runs.loopOther hv hp).cost (Nat.add_comm _ _)

/-- The judgment follows every step of a proper statement. -/
theorem unfolds_step {t : Term} (ht : ProperStatement t) (hs : t ≠ .skip) :
    Unfolds t s (State.step ⟨t, s⟩) := by
  induction ht with
  | skip => exact absurd rfl hs
  | assign he => exact unfolds_assign he
  | cond hc _ _ _ _ => exact unfolds_cond hc
  | seq ha _ iha _ => exact unfolds_seq ha iha
  | loop _ _ _ => exact unfolds_loop

/-! ## The judgment and many steps -/

/-- The state has come to a result: the empty statement in a store, or a fault of the
next step. -/
def State.Concludes (st : State) : Except Fault Store → Prop
  | .ok s => st = ⟨.skip, s⟩
  | .error f => st.program.canStep = .ok true ∧ st.step = .error f

/-- **The judgment agrees with reduction**: it holds exactly when `n` steps lead to a
state that concludes with the result. -/
theorem runs_iff_after {t : Term} (ht : ProperStatement t) :
    Runs t s n r ↔ ∃ st, State.after n ⟨t, s⟩ = .ok st ∧ st.Concludes r := by
  -- The induction is on the steps and not on the statement: unrolling a loop makes the
  -- program larger, but it leaves one step less.
  induction n generalizing t s with
  | zero =>
    by_cases hs : t = .skip
    · subst hs
      rw [runs_skip]
      cases r with
      | ok s' => simp [State.after, State.Concludes, eq_comm]
      | error f => simp [State.after, State.Concludes, canStep]
    · have hu := unfolds_step (s := s) ht hs
      have hc := ht.canStep hs
      cases hst : State.step ⟨t, s⟩ with
      | ok st =>
        rw [hst] at hu
        rw [hu 0 r]
        cases r <;> simp [State.after, State.Concludes, hs, hst]
      | error f =>
        rw [hst] at hu
        rw [hu 0 r]
        cases r <;> simp [State.after, State.Concludes, hs, hst, hc, eq_comm]
  | succ n ih =>
    by_cases hs : t = .skip
    · subst hs
      rw [runs_skip, State.after_succ_of_error rfl]
      simp
    · have hu := unfolds_step (s := s) ht hs
      cases hst : State.step ⟨t, s⟩ with
      | ok st =>
        rw [hst] at hu
        rw [hu, State.after_succ_of_step hst, ← ih (ht.step hst)]
        simp
      | error f =>
        rw [hst] at hu
        rw [hu, State.after_succ_of_error hst]
        simp

end Stepwise
