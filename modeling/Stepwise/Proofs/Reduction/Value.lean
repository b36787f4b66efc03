import Stepwise.Proofs.Reduction.Rules
import Stepwise.Reduction.Evaluation

/-!
# The value of a tree

`value` computes what a tree stands for in one pass, operands from left to right, and
`effort` counts the steps that reduction spends on it. A step keeps the value and uses up
one unit of effort (`value_rule`); a step that fails fails with the fault that `value`
reports (`value_of_rule_error`). So evaluation, which starts again from the root for every
step, comes to the value.
-/

namespace Stepwise

/-- What an operator makes of two operands. -/
def Op.apply : Op → Term → Term → Except Fault Term
  | add, .num m, .num n => .ok (.num (m + n))
  | multiply, .num m, .num n => .ok (.num (m * n))
  | less, .num m, .num n => .ok (.bool (decide (m < n)))
  | greater, .num m, .num n => .ok (.bool (decide (n < m)))
  | bare, a, b => .error (.notExpression (.binary .bare a b))
  | op, a, b => .error (.operands op a b)

namespace Term

/-- The value of a tree, operands from left to right. -/
def value (s : Store) : Term → Except Fault Term
  | num n => .ok (num n)
  | bool b => .ok (bool b)
  | skip => .ok skip
  | var x =>
    match s.get? x with
    | some v => .ok v.term
    | none => .error (.unbound (.text x) s)
  | binary op l r =>
    match l.value s with
    | .error f => .error f
    | .ok a =>
      match r.value s with
      | .error f => .error f
      | .ok b => op.apply a b
  | stray v => .error (.notTerm v)
  | t => .error (.notExpression t)

/-- How many variables and operators a tree holds. -/
def operations : Term → Nat
  | var _ => 1
  | num _ | bool _ | skip | stray _ => 0
  | binary _ l r => l.operations + r.operations + 1
  | assign _ e => e.operations
  | cond c a b => c.operations + a.operations + b.operations
  | seq a b => a.operations + b.operations
  | loop c b => c.operations + b.operations

/-- How many steps a tree takes until it is finished or a step fails. -/
def effort (s : Store) : Term → Nat
  | var x => if (s.get? x).isSome then 1 else 0
  | binary op l r =>
    match l.value s with
    | .error _ => l.effort s
    | .ok a =>
      match r.value s with
      | .error _ => l.effort s + r.effort s
      | .ok b =>
        match op.apply a b with
        | .error _ => l.effort s + r.effort s
        | .ok _ => l.effort s + r.effort s + 1
  | _ => 0

/-! ## Values and finished terms -/

theorem combine_eq_apply (op : Op) (l r : Term) : combine op l r = op.apply l r := by
  cases op <;> cases l <;> cases r <;> rfl

theorem contract_var (s : Store) (x : String) : contract s (var x) = (var x).value s := by
  simp only [contract, value, Store.lookup, Store.find?]
  cases s.get? x <;> rfl

/-- A finished term is its own value. -/
theorem value_of_finished {s : Store} {t : Term} (h : t.canStep = .ok false) :
    t.value s = .ok t := by
  rcases canStep_eq_false_iff.1 h with rfl | ⟨v, rfl⟩
  · rfl
  · cases v <;> rfl

theorem value_term (s : Store) (v : Value) : v.term.value s = .ok v.term :=
  value_of_finished (canStep_term v)

/-- What is no term has no value. -/
theorem value_of_strayed {s : Store} {t : Term} {f : Fault} (h : t.canStep = .error f) :
    t.value s = .error f := by
  obtain ⟨v, rfl, rfl⟩ := canStep_eq_error_iff.1 h
  rfl

/-- An operator gives numbers and truth values only. -/
theorem apply_eq_term {op : Op} {a b t : Term} (h : op.apply a b = .ok t) :
    ∃ v : Value, t = v.term ∧ a.operations = 0 ∧ b.operations = 0 := by
  rw [← combine_eq_apply, combine] at h
  split at h
  · cases h
  · split at h
    · cases h
      exact ⟨_, rfl, rfl, rfl⟩
    · cases h

/-- A value is finished. -/
theorem value_finished {s : Store} {t v : Term} (h : t.value s = .ok v) :
    v.canStep = .ok false := by
  cases t with
  | var x =>
    simp only [value] at h
    split at h
    · cases h
      exact canStep_term _
    · cases h
  | binary op l r =>
    simp only [value] at h
    split at h
    · cases h
    · split at h
      · cases h
      · obtain ⟨w, rfl, -⟩ := apply_eq_term h
        exact canStep_term w
  | num n => cases h; rfl
  | bool b => cases h; rfl
  | skip => cases h; rfl
  | _ => cases h

theorem effort_of_finished {s : Store} {t : Term} (h : t.canStep = .ok false) :
    t.effort s = 0 := by
  rcases canStep_eq_false_iff.1 h with rfl | ⟨v, rfl⟩
  · rfl
  · cases v <;> rfl

theorem effort_of_strayed {s : Store} {t : Term} {f : Fault} (h : t.canStep = .error f) :
    t.effort s = 0 := by
  obtain ⟨v, rfl, -⟩ := canStep_eq_error_iff.1 h
  rfl

theorem operations_of_finished {t : Term} (h : t.canStep = .ok false) : t.operations = 0 := by
  rcases canStep_eq_false_iff.1 h with rfl | ⟨v, rfl⟩
  · rfl
  · cases v <;> rfl

/-- An expression that has a value takes a step for each variable and each operator. -/
theorem effort_of_value {s : Store} {t v : Term} (h : t.value s = .ok v) :
    t.effort s = t.operations := by
  induction t generalizing v with
  | var x =>
    simp only [value] at h
    cases hx : s.get? x with
    | none => rw [hx] at h; cases h
    | some w => simp [effort, operations, hx]
  | binary op l r ihl ihr =>
    simp only [value] at h
    cases hl : l.value s with
    | error f => rw [hl] at h; cases h
    | ok a =>
      cases hr : r.value s with
      | error f => rw [hl, hr] at h; cases h
      | ok b =>
        rw [hl, hr] at h
        simp only [effort, hl, hr, operations, ihl hl, ihr hr]
        rw [show op.apply a b = .ok v from h]
  | num _ | bool _ | skip => rfl
  | _ => cases h

/-! ## What a step does to the value -/

theorem rule_var (s : Store) (x : String) : expressionRule s (var x) = (var x).value s := by
  rw [expressionRule, contract_var]
  intro op l r h
  cases h

/-- A step keeps the value, and there is one step less to take. -/
theorem value_rule {s : Store} {t t' : Term} (h : expressionRule s t = .ok t') :
    t'.value s = t.value s ∧ t.effort s = t'.effort s + 1 ∧
      t.operations = t'.operations + 1 := by
  induction t generalizing t' with
  | var x =>
    rw [rule_var] at h
    have hv : t'.canStep = .ok false := value_finished h
    rw [h, effort_of_value h, value_of_finished hv, effort_of_finished hv,
      operations_of_finished hv]
    exact ⟨rfl, rfl, rfl⟩
  | binary op l r ihl ihr =>
    cases operandTurn s op l r with
    | leftStrayed hl hs => rw [hs] at h; cases h
    | left hl hs =>
      rw [hs] at h
      obtain ⟨l', hl', rfl⟩ := map_eq_ok_iff.1 h
      obtain ⟨hv, he, ho⟩ := ihl hl'
      refine ⟨by simp only [value, hv], ?_, by simp only [operations]; omega⟩
      -- Which effort counts depends on how far the values get, and those are the same.
      simp only [effort, hv, he]
      cases l.value s with
      | error f => rfl
      | ok a =>
        cases r.value s with
        | error f => simp only; omega
        | ok b =>
          simp only
          split <;> omega
    | rightStrayed hl hr hs => rw [hs] at h; cases h
    | right hl hr hs =>
      rw [hs] at h
      obtain ⟨r', hr', rfl⟩ := map_eq_ok_iff.1 h
      obtain ⟨hv, he, ho⟩ := ihr hr'
      refine ⟨by simp only [value, hv], ?_, by simp only [operations]; omega⟩
      simp only [effort, value_of_finished hl, effort_of_finished hl, hv, he]
      cases r.value s with
      | error f => simp only; omega
      | ok b =>
        simp only
        split <;> omega
    | both hl hr hs =>
      rw [hs, combine_eq_apply] at h
      obtain ⟨v, rfl, hol, hor⟩ := apply_eq_term h
      have hv : v.term.canStep = .ok false := canStep_term v
      simp only [value, effort, operations, value_of_finished hl, value_of_finished hr, h,
        effort_of_finished hl, effort_of_finished hr, hol, hor, value_of_finished hv,
        effort_of_finished hv, operations_of_finished hv, and_self]
  | _ => cases h

/-- A step that fails fails with the fault that the value has, and no step comes before
it. -/
theorem value_of_rule_error {s : Store} {t : Term} {f : Fault} (hc : t.canStep = .ok true)
    (h : expressionRule s t = .error f) : t.value s = .error f ∧ t.effort s = 0 := by
  induction t with
  | var x =>
    rw [rule_var] at h
    refine ⟨h, ?_⟩
    simp only [value] at h
    split at h
    · cases h
    · rename_i hx
      simp [effort, hx]
  | binary op l r ihl ihr =>
    cases operandTurn s op l r with
    | leftStrayed hl hs =>
      cases hs.symm.trans h
      simp [value, effort, value_of_strayed hl, effort_of_strayed hl]
    | left hl hs =>
      rw [hs] at h
      obtain ⟨hv, he⟩ := ihl hl (map_eq_error_iff.1 h)
      simp [value, effort, hv, he]
    | rightStrayed hl hr hs =>
      cases hs.symm.trans h
      simp [value, effort, value_of_finished hl, effort_of_finished hl, value_of_strayed hr,
        effort_of_strayed hr]
    | right hl hr hs =>
      rw [hs] at h
      obtain ⟨hv, he⟩ := ihr hr (map_eq_error_iff.1 h)
      simp [value, effort, value_of_finished hl, effort_of_finished hl, hv, he]
    | both hl hr hs =>
      rw [hs, combine_eq_apply] at h
      simp [value, effort, value_of_finished hl, effort_of_finished hl, value_of_finished hr,
        effort_of_finished hr, h]
  | num _ | bool _ | skip | stray _ => cases hc
  | _ => cases h; exact ⟨rfl, rfl⟩

end Term

end Stepwise
