import Stepwise.Proofs.Reduction.Rules

/-!
# Steps one after another

What one step of a state is, shape by shape, and how steps follow one another. A state
whose program is finished, or no term at all, has no step (`canStep_of_step`); a run of
`m + n` steps is one of `m` and then one of `n` (`after_add`).
-/

namespace Stepwise.State

open Term

variable {s : Store} {st st' st'' : State} {m n : Nat}

/-! ## When there is a step -/

/-- A finished program is refused. -/
theorem step_of_finished (h : st.program.canStep = .ok false) :
    st.step = .error (.irreducible st.program) := by
  obtain ⟨t, s⟩ := st
  rcases canStep_eq_false_iff.1 h with rfl | ⟨v, rfl⟩
  · rfl
  · cases v <;> rfl

theorem step_stray (v : Scalar) (s : Store) :
    step ⟨stray v, s⟩ = .error (.notExpression (stray v)) := rfl

/-- A program that is no term is refused. -/
theorem step_of_strayed {f : Fault} (h : st.program.canStep = .error f) :
    ∃ f', st.step = .error f' := by
  obtain ⟨t, s⟩ := st
  obtain ⟨v, rfl, -⟩ := canStep_eq_error_iff.1 h
  exact ⟨_, step_stray v s⟩

/-- Whatever steps has a step left. -/
theorem canStep_of_step (h : st.step = .ok st') : st.program.canStep = .ok true := by
  cases hc : st.program.canStep with
  | error f =>
    obtain ⟨f', hf⟩ := step_of_strayed hc
    rw [hf] at h
    cases h
  | ok more =>
    cases more with
    | true => rfl
    | false =>
      rw [step_of_finished hc] at h
      cases h

/-! ## One step, shape by shape -/

/-- An expression steps by itself and leaves the store alone. -/
theorem step_of_expression {t : Term} (h : t.isStatement = false) :
    step ⟨t, s⟩ = (stepExpression s t).map fun t' => ⟨t', s⟩ := by
  simp [step, h]

/-- A statement other than the empty one steps by the rule for statements. -/
theorem step_of_statement (t : Term) (h : t.isStatement = true) (hs : t ≠ skip) :
    step ⟨t, s⟩ = statementRule s t := by
  rw [← advance_eq_rule]
  simp [step, h, stepStatement, expectStatement, canStep_of_isStatement h hs, bind, Except.bind]

theorem step_assign {x : String} {e : Term} (h : e.canStep = .ok true) :
    step ⟨assign x e, s⟩ = (stepExpression s e).map fun e' => ⟨assign x e', s⟩ := by
  rw [step_of_statement (assign x e) rfl nofun]
  simp [statementRule, stepHead, h]

theorem step_assign_term {x : String} (v : Value) :
    step ⟨assign x v.term, s⟩ = .ok ⟨skip, s.put x v⟩ := by
  rw [step_of_statement (assign x v.term) rfl nofun]
  simp [statementRule, stepHead, Store.bind, Store.accept, Except.map]

theorem step_cond {c a b : Term} (h : c.canStep = .ok true) :
    step ⟨cond c a b, s⟩ = (stepExpression s c).map fun c' => ⟨cond c' a b, s⟩ := by
  rw [step_of_statement (cond c a b) rfl nofun]
  simp [statementRule, stepHead, h]

theorem step_cond_bool (p : Bool) (a b : Term) :
    step ⟨cond (bool p) a b, s⟩ = .ok ⟨if p then a else b, s⟩ := by
  cases p <;> rfl

theorem step_cond_other {c a b : Term} (h : c.canStep = .ok false) (hc : ∀ p, c ≠ bool p) :
    step ⟨cond c a b, s⟩ = .error (.conditionNotTruth c) := by
  rw [step_of_statement (cond c a b) rfl nofun]
  rcases canStep_eq_false_iff.1 h with rfl | ⟨v, rfl⟩
  · rfl
  · cases v with
    | num n => rfl
    | bool p => exact absurd rfl (hc p)

theorem step_seq_skip (b : Term) : step ⟨seq skip b, s⟩ = .ok ⟨b, s⟩ := rfl

/-- A sequence steps as its head does, as long as the head is a statement. -/
theorem step_seq {a b : Term} (ha : a.isStatement = true) (hs : a ≠ skip) :
    step ⟨seq a b, s⟩ = (step ⟨a, s⟩).map (followedBy b) := by
  rw [step_of_statement (seq a b) rfl nofun, statementRule_seq hs, step_of_statement a ha hs]

theorem step_loop (c b : Term) :
    step ⟨loop c b, s⟩ = .ok ⟨cond c (seq b (loop c b)) skip, s⟩ := rfl

/-! ## Many steps -/

theorem after_succ_of_step (h : st.step = .ok st') : after (n + 1) st = after n st' := by
  rw [after, h]

theorem after_succ_of_error {f : Fault} (h : st.step = .error f) :
    after (n + 1) st = .error f := by
  rw [after, h]

/-- A run of `m + n` steps is one of `m` and then one of `n`. -/
theorem after_add (m n : Nat) (st : State) : after (m + n) st = (after m st).bind (after n) := by
  induction m generalizing st with
  | zero => rw [Nat.zero_add]; rfl
  | succ m ih =>
    rw [Nat.succ_add_eq_add_succ, Nat.add_succ]
    cases h : st.step with
    | error f => rw [after_succ_of_error h, after_succ_of_error h]; rfl
    | ok st' => rw [after_succ_of_step h, after_succ_of_step h, ih]

theorem after_trans (h : after m st = .ok st') (h' : after n st' = .ok st'') :
    after (m + n) st = .ok st'' := by
  rw [after_add, h]
  exact h'

theorem after_one (st : State) : after 1 st = st.step := by
  rw [after]
  cases st.step <;> rfl

/-- One more step at the end. -/
theorem after_succ_last (h : after n st = .ok st') : after (n + 1) st = st'.step := by
  rw [after_add, h]
  exact after_one st'

/-- A longer run passes through every shorter one. -/
theorem after_of_le (hmn : m ≤ n) (h : after n st = .ok st'') :
    ∃ st', after m st = .ok st' ∧ after (n - m) st' = .ok st'' := by
  obtain ⟨k, rfl⟩ := Nat.exists_eq_add_of_le hmn
  rw [after_add] at h
  cases hm : after m st with
  | error f => rw [hm] at h; cases h
  | ok st' =>
    rw [hm] at h
    exact ⟨st', rfl, by rw [Nat.add_sub_cancel_left]; exact h⟩

/-- A run that goes on has made a step from each state that it left. -/
theorem step_of_after_lt (hmn : m < n) (hm : after m st = .ok st') (h : after n st = .ok st'') :
    ∃ st₁, st'.step = .ok st₁ := by
  obtain ⟨st₁, h₁, -⟩ := after_of_le hmn h
  exact ⟨st₁, (after_succ_last hm).symm.trans h₁⟩

/-- **What every step keeps, a run keeps.** -/
theorem after_induction {P : State → Prop}
    (keeps : ∀ {st st' : State}, P st → st.step = .ok st' → P st') (hst : P st)
    (h : after n st = .ok st') : P st' := by
  induction n generalizing st with
  | zero => cases h; exact hst
  | succ n ih =>
    cases hs : st.step with
    | error f =>
      rw [after_succ_of_error hs] at h
      cases h
    | ok st₁ =>
      rw [after_succ_of_step hs] at h
      exact ih (keeps hst hs) h

/-- A run fails at a state that it has come to and whose step fails. -/
theorem step_of_after_error {f : Fault} (h : after n st = .error f) :
    ∃ i st', i < n ∧ after i st = .ok st' ∧ st'.step = .error f := by
  induction n generalizing st with
  | zero => cases h
  | succ n ih =>
    cases hs : st.step with
    | error f' =>
      rw [after_succ_of_error hs] at h
      cases h
      exact ⟨0, st, Nat.succ_pos n, rfl, hs⟩
    | ok st₁ =>
      rw [after_succ_of_step hs] at h
      obtain ⟨i, st', hi, ha, hf⟩ := ih h
      exact ⟨i + 1, st', Nat.succ_lt_succ hi, (after_succ_of_step hs).trans ha, hf⟩

end Stepwise.State
