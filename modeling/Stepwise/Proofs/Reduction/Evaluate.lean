import Stepwise.Proofs.Reduction.Value

/-!
# Evaluation comes to the value

`evaluate` steps an expression from the root until it is finished. It gives the value of
the tree, or the fault that the value has, on every tree but one whose root is an infix
shape without an operator: such a root is refused before its operands are looked at.
When it succeeds it has made one step for each variable and each operator.
-/

namespace Stepwise.Term

/-- The expression after `n` steps, or the fault of the first step that fails. -/
def after (s : Store) : Nat → Term → Except Fault Term
  | 0, t => .ok t
  | n + 1, t =>
    match t.stepExpression s with
    | .ok t' => after s n t'
    | .error f => .error f

/-- The root is no infix shape without an operator. -/
def Rooted (t : Term) : Prop := ∀ l r, t ≠ binary .bare l r

/-! ## The root of an expression -/

/-- A step puts no bare infix shape at the root. -/
theorem Rooted.rule {s : Store} {t t' : Term} (hr : t.Rooted)
    (h : expressionRule s t = .ok t') : t'.Rooted := by
  intro a b hb
  subst hb
  cases t with
  | var x =>
    rw [rule_var] at h
    cases value_finished h
  | binary op l r =>
    cases operandTurn s op l r with
    | leftStrayed hl hs => rw [hs] at h; cases h
    | left hl hs =>
      rw [hs] at h
      obtain ⟨l', -, he⟩ := map_eq_ok_iff.1 h
      cases he
      exact hr _ _ rfl
    | rightStrayed hl hr' hs => rw [hs] at h; cases h
    | right hl hr' hs =>
      rw [hs] at h
      obtain ⟨r', -, he⟩ := map_eq_ok_iff.1 h
      cases he
      exact hr _ _ rfl
    | both hl hr' hs =>
      rw [hs, combine_eq_apply] at h
      obtain ⟨v, hv, -⟩ := apply_eq_term h
      cases v <;> cases hv
  | _ => cases h

/-- A tree that can step and has no bare root is an expression or a statement. -/
theorem Rooted.isExpression {t : Term} (hr : t.Rooted) (hc : t.canStep = .ok true)
    (hs : t.isStatement = false) : t.isExpression = true := by
  cases t with
  | binary op l r =>
    cases op with
    | bare => exact absurd rfl (hr l r)
    | _ => rfl
  | var x => rfl
  | num _ | bool _ | skip | stray _ => cases hc
  | _ => cases hs

/-- A statement other than the empty one has no value. -/
theorem value_of_isStatement {s : Store} {t : Term} (hs : t.isStatement = true)
    (hc : t.canStep = .ok true) : t.value s = .error (.notExpression t) := by
  cases t with
  | skip => cases hc
  | assign _ _ | cond _ _ _ | seq _ _ | loop _ _ => rfl
  | _ => cases hs

/-- What steps is an expression that can step, and it follows the rule. -/
theorem stepExpression_ok {s : Store} {t t' : Term} (h : t.stepExpression s = .ok t') :
    t.canStep = .ok true ∧ expressionRule s t = .ok t' := by
  cases he : t.isExpression with
  | false => rw [stepExpression_of_not he] at h; cases h
  | true =>
    cases hc : t.canStep with
    | error f => simp [stepExpression, expectExpression, he, hc, bind, Except.bind] at h
    | ok more =>
      cases more with
      | false => simp [stepExpression, expectExpression, he, hc, bind, Except.bind] at h
      | true => exact ⟨rfl, stepExpression_eq_rule he hc ▸ h⟩

/-- A step that fails fails with the fault that the value has. -/
theorem value_of_stepExpression_error {s : Store} {t : Term} {f : Fault} (hr : t.Rooted)
    (hc : t.canStep = .ok true) (h : t.stepExpression s = .error f) : t.value s = .error f := by
  cases hs : t.isStatement with
  | true =>
    have he : t.isExpression = false := by cases t <;> first | rfl | cases hs
    rw [stepExpression_of_not he] at h
    rw [value_of_isStatement hs hc, h]
  | false =>
    rw [stepExpression_eq_rule (hr.isExpression hc hs) hc] at h
    exact (value_of_rule_error hc h).1

/-! ## Evaluation -/

/-- Evaluation gives the value, or the fault that the value has. -/
theorem evaluate_eq {s : Store} {t : Term} (hr : t.Rooted) : t.evaluate s = t.value s := by
  fun_induction evaluate s t with
  | case1 t f hc => rw [value_of_strayed hc]
  | case2 t hc => rw [value_of_finished hc]
  | case3 t hc f h => rw [value_of_stepExpression_error hr hc h]
  | case4 t hc t' h ih =>
    obtain ⟨-, h⟩ := stepExpression_ok h
    rw [ih (hr.rule h), (value_rule h).1]

/-- Evaluation makes a step for each operation, and stops there. -/
theorem after_of_evaluate {s : Store} {t v : Term} (h : t.evaluate s = .ok v) :
    after s t.operations t = .ok v ∧ v.canStep = .ok false ∧
      ∀ n < t.operations, ∃ u, after s n t = .ok u ∧ u.canStep = .ok true := by
  fun_induction evaluate s t with
  | case1 t f hc => cases h
  | case2 t hc =>
    cases h
    rw [operations_of_finished hc]
    exact ⟨rfl, hc, fun n hn => absurd hn (Nat.not_lt_zero n)⟩
  | case3 t hc f hs => cases h
  | case4 t hc t' hs ih =>
    obtain ⟨hlast, hv, hbefore⟩ := ih h
    rw [(value_rule (stepExpression_ok hs).2).2.2]
    refine ⟨by rw [after, hs]; exact hlast, hv, ?_⟩
    intro n hn
    cases n with
    | zero => exact ⟨t, rfl, hc⟩
    | succ n =>
      rw [after, hs]
      exact hbefore n (Nat.lt_of_succ_lt_succ hn)

/-- **Evaluation agrees with the value**, faults included, and when it succeeds it makes
one step for each variable and each operator of the tree. -/
theorem evaluate_eq_value (s : Store) (t : Term) (hr : t.Rooted) :
    t.evaluate s = t.value s ∧
      ∀ v, t.evaluate s = .ok v →
        after s t.operations t = .ok v ∧ v.canStep = .ok false ∧
          ∀ n < t.operations, ∃ u, after s n t = .ok u ∧ u.canStep = .ok true :=
  ⟨evaluate_eq hr, fun _ => after_of_evaluate⟩

/-- A comparison of a sum with a number, in a store that binds the variable read. -/
theorem evaluate_eq_value_comparison :
    Rooted (binary .less (binary .add (var "x") (num 1)) (num 9)) ∧
      (binary .less (binary .add (var "x") (num 1)) (num 9)).evaluate
        ((∅ : Store).put "x" (.num 3)) = .ok (bool true) ∧
      after ((∅ : Store).put "x" (.num 3)) 3
        (binary .less (binary .add (var "x") (num 1)) (num 9)) = .ok (bool true) := by
  have hr : Rooted (binary .less (binary .add (var "x") (num 1)) (num 9)) := nofun
  obtain ⟨hv, hs⟩ := evaluate_eq_value ((∅ : Store).put "x" (.num 3)) _ hr
  have hv : _ = Except.ok (bool true) := hv.trans (by rfl)
  exact ⟨hr, hv, (hs _ hv).1⟩

end Stepwise.Term
