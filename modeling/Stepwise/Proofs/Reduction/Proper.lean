import Stepwise.Proofs.Reduction.After
import Stepwise.Proofs.Reduction.Value

/-!
# Proper programs

A proper expression has expressions in every operand position and no infix shape without
an operator; a proper statement has expressions and statements where each is meant.
Reduction keeps both (`ProperExpression.rule`, `ProperStatement.step`), so the checks
that a step makes on the root never fail, and a proper expression either is a value or
steps or fails as its value says (`ProperExpression.progress`).
-/

namespace Stepwise.Term

/-- Expressions with expressions in every operand position. -/
inductive ProperExpression : Term → Prop
  | var (x : String) : ProperExpression (var x)
  | num (n : Int) : ProperExpression (num n)
  | bool (b : Bool) : ProperExpression (bool b)
  | binary {op : Op} {l r : Term} : op ≠ .bare → ProperExpression l → ProperExpression r →
      ProperExpression (binary op l r)

/-- Statements with statements and expressions where each is meant. -/
inductive ProperStatement : Term → Prop
  | skip : ProperStatement skip
  | assign {x : String} {e : Term} : ProperExpression e → ProperStatement (assign x e)
  | cond {c a b : Term} : ProperExpression c → ProperStatement a → ProperStatement b →
      ProperStatement (cond c a b)
  | seq {a b : Term} : ProperStatement a → ProperStatement b → ProperStatement (seq a b)
  | loop {c b : Term} : ProperExpression c → ProperStatement b → ProperStatement (loop c b)

/-! ## Expressions -/

theorem ProperExpression.term (v : Value) : ProperExpression v.term := by
  cases v with
  | num n => exact .num n
  | bool b => exact .bool b

theorem ProperExpression.isExpression {e : Term} (h : ProperExpression e) :
    e.isExpression = true := by
  cases h with
  | binary hop _ _ => simpa [Term.isExpression] using hop
  | _ => rfl

/-- A proper expression is a value or has a step left. -/
theorem ProperExpression.canStep {e : Term} (h : ProperExpression e) :
    (∃ v : Value, e = v.term) ∨ e.canStep = .ok true := by
  cases h with
  | var x => exact .inr rfl
  | num n => exact .inl ⟨.num n, rfl⟩
  | bool b => exact .inl ⟨.bool b, rfl⟩
  | binary _ _ _ => exact .inr rfl

/-- A step keeps an expression proper. -/
theorem ProperExpression.rule {s : Store} {e e' : Term} (he : ProperExpression e)
    (h : expressionRule s e = .ok e') : ProperExpression e' := by
  induction he generalizing e' with
  | var x =>
    rw [rule_var, value] at h
    split at h
    · cases h
      exact .term _
    · cases h
  | num n => cases h
  | bool b => cases h
  | @binary op l r hop hl hr ihl ihr =>
    cases operandTurn s op l r with
    | leftStrayed _ hs => rw [hs] at h; cases h
    | left _ hs =>
      rw [hs] at h
      obtain ⟨l', hl', rfl⟩ := map_eq_ok_iff.1 h
      exact .binary hop (ihl hl') hr
    | rightStrayed _ _ hs => rw [hs] at h; cases h
    | right _ _ hs =>
      rw [hs] at h
      obtain ⟨r', hr', rfl⟩ := map_eq_ok_iff.1 h
      exact .binary hop hl (ihr hr')
    | both _ _ hs =>
      rw [hs, combine_eq_apply] at h
      obtain ⟨v, rfl, -⟩ := apply_eq_term h
      exact .term v

/-- What becomes of a proper expression in one step. -/
inductive ExpressionProgress (s : Store) (e : Term) : Prop
  /-- It is a value. -/
  | finished (v : Value) (he : e = v.term)
  /-- It steps to a proper expression of the same value. -/
  | steps {e' : Term} (hc : e.canStep = .ok true) (h : e.stepExpression s = .ok e')
      (proper : ProperExpression e') (value : e'.value s = e.value s)
      (effort : e.effort s = e'.effort s + 1) (operations : e.operations = e'.operations + 1)
  /-- The step fails, as the value says. -/
  | fails {f : Fault} (hc : e.canStep = .ok true) (h : e.stepExpression s = .error f)
      (value : e.value s = .error f) (effort : e.effort s = 0)

theorem ProperExpression.progress {e : Term} (he : ProperExpression e) (s : Store) :
    ExpressionProgress s e := by
  rcases he.canStep with ⟨v, hv⟩ | hc
  · exact .finished v hv
  · have hrule := stepExpression_eq_rule (s := s) he.isExpression hc
    cases h : expressionRule s e with
    | ok e' =>
      obtain ⟨hv, heff, hop⟩ := value_rule h
      exact .steps hc (hrule.trans h) (he.rule h) hv heff hop
    | error f =>
      obtain ⟨hv, heff⟩ := value_of_rule_error hc h
      exact .fails hc (hrule.trans h) hv heff

/-! ## Statements -/

theorem ProperStatement.isStatement {t : Term} (h : ProperStatement t) :
    t.isStatement = true := by
  cases h <;> rfl

/-- A proper statement is finished only if it is the empty one. -/
theorem ProperStatement.canStep {t : Term} (h : ProperStatement t) (hs : t ≠ .skip) :
    t.canStep = .ok true :=
  canStep_of_isStatement h.isStatement hs

/-- A step keeps a statement proper. -/
theorem ProperStatement.step {t : Term} {s : Store} {st : State} (ht : ProperStatement t)
    (h : State.step ⟨t, s⟩ = .ok st) : ProperStatement st.program := by
  induction ht generalizing st with
  | skip => cases h
  | @assign x e he =>
    cases he.progress s with
    | finished v hv =>
      subst hv
      rw [State.step_assign_term] at h
      cases h
      exact .skip
    | steps hc hs he' _ _ _ =>
      rw [State.step_assign hc, hs] at h
      cases h
      exact .assign he'
    | fails hc hs _ _ =>
      rw [State.step_assign hc, hs] at h
      cases h
  | @cond c a b hc ha hb iha ihb =>
    cases hc.progress s with
    | finished v hv =>
      subst hv
      cases v with
      | num n => cases h
      | bool p =>
        rw [show (Value.bool p).term = bool p from rfl, State.step_cond_bool] at h
        cases h
        cases p
        · exact hb
        · exact ha
    | steps hcs hs hc' _ _ _ =>
      rw [State.step_cond hcs, hs] at h
      cases h
      exact .cond hc' ha hb
    | fails hcs hs _ _ =>
      rw [State.step_cond hcs, hs] at h
      cases h
  | @seq a b ha hb iha ihb =>
    by_cases hs : a = .skip
    · subst hs
      cases h
      exact hb
    · rw [State.step_seq ha.isStatement hs] at h
      obtain ⟨st₁, h₁, rfl⟩ := map_eq_ok_iff.1 h
      exact .seq (iha h₁) hb
  | loop hc hb _ =>
    cases h
    exact .cond hc (.seq hb (.loop hc hb)) .skip

end Stepwise.Term
