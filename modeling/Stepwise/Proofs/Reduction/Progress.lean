import Stepwise.Proofs.Reduction.Proper
import Stepwise.Proofs.Reduction.Evaluate

/-!
# Progress of proper programs

There are two families of proper programs, expressions and statements, and reduction never
leaves either (`Family.Proper.step`, `Family.Proper.after`). A proper program is finished,
or it steps, or it fails in one of three ways, which `Fault.Expected` lists: it reads a name
that is not bound, an operator meets values that are not both numbers, or a condition comes
out as a number (`Family.Proper.progress`). The faults that tell of an ill-made tree, of a
binding that is not allowed, or of a step too many never occur.
-/

namespace Stepwise

open Term

/-- The faults that a proper program runs into, in the store in which the step fails. -/
inductive Fault.Expected (s : Store) : Fault → Prop
  | unbound {x : String} : s.get? x = none → Expected s (.unbound (.text x) s)
  | operands {op : Op} {v w : Value} : op ≠ .bare →
      (∀ m n, ¬ (v = .num m ∧ w = .num n)) → Expected s (.operands op v.term w.term)
  | conditionNotTruth (n : Int) : Expected s (.conditionNotTruth (.num n))

variable {s : Store} {t : Term} {st : State} {f : Fault} {n : Nat}

/-! ## Expressions -/

theorem Term.ProperExpression.not_isStatement {e : Term} (he : ProperExpression e) :
    e.isStatement = false := by
  cases he <;> rfl

/-- The value of a proper expression is a number or a truth value. -/
theorem Term.ProperExpression.value_ok {e v : Term} (he : ProperExpression e)
    (h : e.value s = .ok v) : ∃ w : Value, v = w.term := by
  cases he with
  | var x =>
    rw [value] at h
    split at h
    · cases h; exact ⟨_, rfl⟩
    · cases h
  | num n => cases h; exact ⟨.num n, rfl⟩
  | bool b => cases h; exact ⟨.bool b, rfl⟩
  | @binary op l r _ _ _ =>
    rw [value] at h
    split at h
    · cases h
    · split at h
      · cases h
      · obtain ⟨w, hw, -⟩ := apply_eq_term h
        exact ⟨w, hw⟩

theorem apply_error {op : Op} {v w : Value} (hop : op ≠ .bare)
    (h : op.apply v.term w.term = .error f) : f.Expected s := by
  have hnot : ∀ m n, ¬ (v = .num m ∧ w = .num n) := by
    rintro m n ⟨rfl, rfl⟩
    cases op <;> first | exact hop rfl | cases h
  have hf : f = .operands op v.term w.term := by
    cases op <;> cases v <;> cases w <;> first | exact absurd rfl hop | cases h <;> rfl
  rw [hf]
  exact .operands hop hnot

/-- A proper expression without a value has an expected fault. -/
theorem Term.ProperExpression.value_error {e : Term} (he : ProperExpression e)
    (h : e.value s = .error f) : f.Expected s := by
  induction he with
  | var x =>
    rw [value] at h
    split at h
    · cases h
    · rename_i hx
      cases h
      exact .unbound hx
  | num n => cases h
  | bool b => cases h
  | @binary op l r hop hl hr ihl ihr =>
    rw [value] at h
    split at h
    · rename_i hlf
      cases h
      exact ihl hlf
    · rename_i a ha
      split at h
      · rename_i hrf
        cases h
        exact ihr hrf
      · rename_i b hb
        obtain ⟨v, rfl⟩ := hl.value_ok ha
        obtain ⟨w, rfl⟩ := hr.value_ok hb
        exact apply_error hop h

/-- A proper expression with a step left fails only with an expected fault. -/
theorem Term.ProperExpression.step_error {e : Term} (he : ProperExpression e)
    (hc : e.canStep = .ok true) (h : e.stepExpression s = .error f) : f.Expected s := by
  rw [stepExpression_eq_rule he.isExpression hc] at h
  exact he.value_error (value_of_rule_error hc h).1

/-! ## Statements -/

/-- A proper statement other than the empty one fails only with an expected fault. -/
theorem Term.ProperStatement.step_error (ht : ProperStatement t) (hs : t ≠ .skip)
    (h : State.step ⟨t, s⟩ = .error f) : f.Expected s := by
  induction ht with
  | skip => exact absurd rfl hs
  | @assign x e he =>
    rcases he.canStep with ⟨v, rfl⟩ | hc
    · rw [State.step_assign_term] at h
      cases h
    · rw [State.step_assign hc] at h
      exact he.step_error hc (map_eq_error_iff.1 h)
  | @cond c a b hc _ _ _ _ =>
    rcases hc.canStep with ⟨v, rfl⟩ | hcs
    · cases v with
      | num n =>
        rw [State.step_cond_other rfl (by exact nofun)] at h
        cases h
        exact .conditionNotTruth n
      | bool p =>
        rw [show (Value.bool p).term = bool p from rfl, State.step_cond_bool] at h
        cases h
    · rw [State.step_cond hcs] at h
      exact hc.step_error hcs (map_eq_error_iff.1 h)
  | @seq a b ha _ iha _ =>
    by_cases hskip : a = .skip
    · subst hskip
      cases h
    · rw [State.step_seq ha.isStatement hskip] at h
      exact iha hskip (map_eq_error_iff.1 h)
  | loop _ _ _ => cases h

/-! ## The two families -/

/-- The families of programs. -/
inductive Family
  | expression
  | statement

namespace Family

variable {F : Family}

/-- The proper programs of a family. -/
def Proper : Family → Term → Prop
  | expression => ProperExpression
  | statement => ProperStatement

/-- The programs with which a family comes to its end. -/
def Finished : Family → Term → Prop
  | expression, t => ∃ v : Value, t = v.term
  | statement, t => t = .skip

theorem Proper.canStep (ht : F.Proper t) : F.Finished t ∨ t.canStep = .ok true := by
  cases F with
  | expression => exact ProperExpression.canStep ht
  | statement =>
    by_cases hs : t = skip
    · exact .inl hs
    · exact .inr (ProperStatement.canStep ht hs)

/-- A step stays in the family. -/
theorem Proper.step (ht : F.Proper st.program) {st' : State} (h : st.step = .ok st') :
    F.Proper st'.program := by
  cases F with
  | expression =>
    have he : ProperExpression st.program := ht
    have hs : st.program.isStatement = false := he.not_isStatement
    obtain ⟨t', ht', rfl⟩ := map_eq_ok_iff.1 ((State.step_of_expression hs).symm.trans h)
    exact he.rule (stepExpression_ok ht').2
  | statement => exact ProperStatement.step ht h

/-- A run stays in the family. -/
theorem Proper.after (ht : F.Proper st.program) {st' : State}
    (h : State.after n st = .ok st') : F.Proper st'.program :=
  State.after_induction (P := fun st => F.Proper st.program) (fun hst hs => hst.step hs) ht h

/-- A program that can step and does not fails with an expected fault. -/
theorem Proper.step_error (ht : F.Proper st.program) (hc : st.program.canStep = .ok true)
    (h : st.step = .error f) : f.Expected st.store := by
  cases F with
  | expression =>
    have he : ProperExpression st.program := ht
    have hs : st.program.isStatement = false := he.not_isStatement
    exact he.step_error hc (map_eq_error_iff.1 ((State.step_of_expression hs).symm.trans h))
  | statement =>
    have hs : st.program ≠ skip := fun e => by rw [e] at hc; cases hc
    exact ProperStatement.step_error ht hs h

/-- **Progress.** A proper program is finished, or steps, or fails with an expected
fault. -/
theorem Proper.progress (ht : F.Proper st.program) :
    F.Finished st.program ∨ (∃ st', st.step = .ok st') ∨
      ∃ f, st.step = .error f ∧ f.Expected st.store := by
  rcases ht.canStep with hf | hc
  · exact .inl hf
  · cases h : st.step with
    | ok st' => exact .inr (.inl ⟨st', rfl⟩)
    | error f => exact .inr (.inr ⟨f, rfl, ht.step_error hc h⟩)

end Family

end Stepwise
