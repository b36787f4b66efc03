import Stepwise.Reduction.Step

/-!
# The rules of reduction, read off the tree

A step finds its place by walking down from the root with the frames passed on a stack.
Here the same step is told by recursion on the tree: `expressionRule` for an operand at
any depth, `statementRule` for a statement that stands first in a sequence at any
depth. Main statements: `walk_eq_rule` and `advance_eq_rule`. From here on nothing else
looks at frames or at stacks of second halves.
-/

namespace Stepwise

/-! ## Results that may be faults -/

section Results

variable {ε α β : Type} {x : Except ε α} {f : α → β}

theorem map_eq_ok_iff {b : β} : x.map f = .ok b ↔ ∃ a, x = .ok a ∧ f a = b := by
  cases x <;> simp [Except.map]

theorem map_eq_error_iff {e : ε} : x.map f = .error e ↔ x = .error e := by
  cases x <;> simp [Except.map]

theorem ok_of_toOption {a : α} (h : x.toOption = some a) : x = .ok a := by
  cases x with
  | error e => cases h
  | ok b => cases h; rfl

end Results

/-- The state with a second half put behind its program. -/
def State.followedBy (b : Term) (st : State) : State :=
  { st with program := .seq st.program b }

namespace Term

/-! ## Whether a term can step -/

@[simp] theorem canStep_term (v : Value) : v.term.canStep = .ok false := by
  cases v <;> rfl

/-- The question is refused for values from outside, and for them only. -/
theorem canStep_eq_error_iff {t : Term} {f : Fault} :
    t.canStep = .error f ↔ ∃ v, t = stray v ∧ f = .notTerm v := by
  cases t <;> simp [canStep, eq_comm]

/-- The finished terms are the values and the empty statement. -/
theorem canStep_eq_false_iff {t : Term} :
    t.canStep = .ok false ↔ t = skip ∨ ∃ v : Value, t = v.term := by
  constructor
  · intro h
    cases t with
    | skip => exact .inl rfl
    | num n => exact .inr ⟨.num n, rfl⟩
    | bool b => exact .inr ⟨.bool b, rfl⟩
    | _ => cases h
  · intro h
    rcases h with rfl | ⟨v, rfl⟩
    · rfl
    · exact canStep_term v

/-- Only statements and expression shapes have a step left. -/
theorem canStep_of_isStatement {t : Term} (h : t.isStatement = true) (hs : t ≠ skip) :
    t.canStep = .ok true := by
  cases t <;> simp_all [isStatement, canStep]

/-! ## Expressions -/

/-- One step of an operand, by recursion on the tree: into the left operand as long as
that can step, then into the right one, and last the operator itself. -/
def expressionRule (s : Store) : Term → Except Fault Term
  | binary op l r =>
    match l.canStep with
    | .error f => .error f
    | .ok true => (expressionRule s l).map fun l' => binary op l' r
    | .ok false =>
      match r.canStep with
      | .error f => .error f
      | .ok true => (expressionRule s r).map fun r' => binary op l r'
      | .ok false => combine op l r
  | t => contract s t

/-- Whose turn it is below an operator, and what its step is. -/
inductive OperandTurn (s : Store) (op : Op) (l r : Term) : Prop
  | leftStrayed {f : Fault} (hl : l.canStep = .error f)
      (h : expressionRule s (binary op l r) = .error f)
  | left (hl : l.canStep = .ok true)
      (h : expressionRule s (binary op l r)
        = (expressionRule s l).map fun l' => binary op l' r)
  | rightStrayed {f : Fault} (hl : l.canStep = .ok false) (hr : r.canStep = .error f)
      (h : expressionRule s (binary op l r) = .error f)
  | right (hl : l.canStep = .ok false) (hr : r.canStep = .ok true)
      (h : expressionRule s (binary op l r)
        = (expressionRule s r).map fun r' => binary op l r')
  | both (hl : l.canStep = .ok false) (hr : r.canStep = .ok false)
      (h : expressionRule s (binary op l r) = combine op l r)

theorem operandTurn (s : Store) (op : Op) (l r : Term) : OperandTurn s op l r := by
  cases hl : l.canStep with
  | error f => exact .leftStrayed hl (by rw [expressionRule, hl])
  | ok more =>
    cases more with
    | true => exact .left hl (by rw [expressionRule, hl])
    | false =>
      cases hr : r.canStep with
      | error f => exact .rightStrayed hl hr (by rw [expressionRule, hl, hr])
      | ok more =>
        cases more with
        | true => exact .right hl hr (by rw [expressionRule, hl, hr])
        | false => exact .both hl hr (by rw [expressionRule, hl, hr])

theorem rebuild_append (inner outer : List Frame) (t : Term) :
    rebuild (inner ++ outer) t = rebuild outer (rebuild inner t) :=
  List.foldl_append

/-- The frames with which a walk starts stay at the bottom of the stack. -/
theorem descend_append (path : List Frame) (t : Term) :
    descend path t = (descend [] t).map fun found => (found.1 ++ path, found.2) := by
  induction t generalizing path with
  | binary op l r ihl ihr =>
    simp only [descend]
    cases l.canStep with
    | error f => rfl
    | ok more =>
      cases more with
      | true =>
        simp only
        -- Both sides walk on with a frame on the stack; the hypothesis takes it off both.
        rw [ihl (.onLeft op r :: path), ihl [.onLeft op r]]
        cases descend [] l <;> simp [Except.map]
      | false =>
        cases r.canStep with
        | error f => rfl
        | ok more =>
          cases more with
          | true =>
            simp only
            rw [ihr (.onRight op l :: path), ihr [.onRight op l]]
            cases descend [] r <;> simp [Except.map]
          | false => rfl
  | _ => rfl

/-- What a walk does below a frame, it does inside that frame. -/
theorem walk_frame (s : Store) (f : Frame) (t : Term) :
    (do
      let (path, spot) ← descend [f] t
      let spot' ← contract s spot
      return rebuild path spot') = (walk s t).map f.fill := by
  rw [descend_append, walk]
  cases descend [] t with
  | error e => rfl
  | ok found =>
    simp only [Except.map, bind, Except.bind, pure, Except.pure]
    cases contract s found.2 with
    | error e => rfl
    | ok u => simp only [rebuild_append]; rfl

/-- **The walk follows the recursive rule**, on every tree. -/
theorem walk_eq_rule (s : Store) (t : Term) : walk s t = expressionRule s t := by
  induction t with
  | binary op l r ihl ihr =>
    -- Turned into walks of the operands, the rule is what `walk_frame` says of a walk below.
    rw [expressionRule, ← ihl, ← ihr, walk]
    simp only [descend]
    cases l.canStep with
    | error f => rfl
    | ok more =>
      cases more with
      | true => exact walk_frame s (.onLeft op r) l
      | false =>
        cases r.canStep with
        | error f => rfl
        | ok more =>
          cases more with
          | true => exact walk_frame s (.onRight op l) r
          | false =>
            simp only [bind, Except.bind, contract]
            cases combine op l r <;> rfl
  | _ =>
    simp only [walk, descend, expressionRule, bind, Except.bind, pure, Except.pure, rebuild,
      List.foldl_nil]
    split <;> simp_all

/-- A step of an expression checks the root and then follows the rule. -/
theorem stepExpression_eq_rule {s : Store} {t : Term} (he : t.isExpression = true)
    (hc : t.canStep = .ok true) : stepExpression s t = expressionRule s t := by
  rw [← walk_eq_rule]
  simp [stepExpression, expectExpression, he, hc, bind, Except.bind]

theorem stepExpression_of_not {s : Store} {t : Term} (he : t.isExpression = false) :
    stepExpression s t = .error (.notExpression t) := by
  simp [stepExpression, expectExpression, he, bind, Except.bind]

/-! ## Statements -/

/-- One step of a statement that stands first in a sequence, by recursion on the tree. -/
def statementRule (s : Store) : Term → Except Fault State
  | seq skip b => .ok ⟨b, s⟩
  | seq a b => (statementRule s a).map (State.followedBy b)
  | t => stepHead s t

theorem statementRule_seq {s : Store} {a b : Term} (ha : a ≠ skip) :
    statementRule s (seq a b) = (statementRule s a).map (State.followedBy b) := by
  cases a <;> first | exact absurd rfl ha | rfl

theorem head_seq {a b : Term} (seconds : List Term) (ha : a ≠ skip) :
    head seconds (seq a b) = head (b :: seconds) a := by
  cases a <;> first | exact absurd rfl ha | rfl

/-- The second halves with which a walk starts stay at the bottom of the stack. -/
theorem head_append (seconds : List Term) (t : Term) :
    head seconds t = ((head [] t).1 ++ seconds, (head [] t).2) := by
  induction t generalizing seconds with
  | seq a b iha _ =>
    by_cases ha : a = skip
    · subst ha
      rfl
    · rw [head_seq _ ha, head_seq _ ha, iha (b :: seconds), iha [b]]
      simp
  | _ => rfl

theorem resume_append (inner outer : List Term) (t : Term) :
    resume (inner ++ outer) t = resume outer (resume inner t) :=
  List.foldl_append

/-- A sequence with a head to reduce steps at its head. -/
theorem advance_seq {s : Store} {a b : Term} (ha : a ≠ skip) :
    advance s (seq a b) = (advance s a).map (State.followedBy b) := by
  simp only [advance, head_seq _ ha, head_append [b] a]
  cases stepHead s (head [] a).2 with
  | error f => rfl
  | ok st => simp only [Except.map, resume_append]; rfl

/-- **The walk to the head follows the recursive rule**, on every tree. -/
theorem advance_eq_rule (s : Store) (t : Term) : advance s t = statementRule s t := by
  induction t with
  | seq a b iha _ =>
    by_cases ha : a = skip
    · subst ha
      rfl
    · rw [advance_seq ha, statementRule_seq ha, iha]
  | _ =>
    simp only [advance, head, statementRule, resume, List.foldl_nil]
    exact congrFun Except.map_id _

end Term

end Stepwise
