import Stepwise.Proofs.Reduction.Value

/-!
# The plain rules

The rules of the language as a definition of it would state them, by recursion on the tree
and without a walk, a stack of frames or a stack of second halves: `Plain.operand` for a
tree in the place of an operand, `Plain.expression` for an expression on its own, and
`Plain.statement` for a statement, whose recursion looks at the shape of every head that it
comes to.

Main statement: `step_plain`. Walking down, contracting and rebuilding makes the same step,
or fails with the same fault, on every tree.
-/

namespace Stepwise

open Term

namespace Plain

/-! ## The rules -/

/-- The step of a tree in the place of an operand. The left operand has its turn as long as
it can step, then the right one has, and then they are combined. What is an operator, a bare
infix shape included, keeps its place over the operand that steps; what has no rule for
expressions is refused. -/
def operand (s : Store) : Term → Except Fault Term
  | var x =>
    match s.get? x with
    | some v => .ok v.term
    | none => .error (.unbound (.text x) s)
  | binary op l r =>
    match l.canStep with
    | .error f => .error f
    | .ok true => (operand s l).map fun l' => binary op l' r
    | .ok false =>
      match r.canStep with
      | .error f => .error f
      | .ok true => (operand s r).map fun r' => binary op l r'
      | .ok false => op.apply l r
  | t => .error (.notExpression t)

/-- The step of an expression. Here a bare infix shape is refused, and so is a value. -/
def expression (s : Store) (t : Term) : Except Fault Term :=
  if !t.isExpression then .error (.notExpression t)
  else if t.isValue then .error (.irreducible t)
  else operand s t

/-- The branch that a finished condition chooses. -/
def choose (a b : Term) : Term → Except Fault Term
  | .bool p => .ok (if p then a else b)
  | c => .error (.conditionNotTruth c)

/-- The step of a statement. -/
def statement (s : Store) : Term → Except Fault State
  | skip => .error (.irreducible skip)
  | assign x e =>
    match e.canStep with
    | .error f => .error f
    | .ok true => (expression s e).map fun e' => ⟨assign x e', s⟩
    | .ok false =>
      match e.value? with
      | some v => .ok ⟨skip, s.put x v⟩
      | none => .error (.valueNotFinished x e)
  | .cond c a b =>
    match c.canStep with
    | .error f => .error f
    | .ok true => (expression s c).map fun c' => ⟨.cond c' a b, s⟩
    | .ok false => (choose a b c).map fun t => ⟨t, s⟩
  | seq a b =>
    if a = skip then .ok ⟨b, s⟩
    else (statement s a).map fun st => ⟨seq st.program b, st.store⟩
  | loop c b => .ok ⟨.cond c (seq b (loop c b)) skip, s⟩
  | t => .error (.notStatement t)

variable {s : Store} {t : Term}

/-! ## Expressions -/

theorem operand_eq_rule (s : Store) (t : Term) : operand s t = expressionRule s t := by
  induction t with
  | var x => rw [rule_var]; rfl
  | binary op l r ihl ihr =>
    rw [operand, ihl, ihr]
    cases operandTurn s op l r with
    | leftStrayed hl hs => rw [hs, hl]
    | left hl hs => rw [hs, hl]
    | rightStrayed hl hr hs => rw [hs, hl, hr]
    | right hl hr hs => rw [hs, hl, hr]
    | both hl hr hs => rw [hs, hl, hr, combine_eq_apply]
  | _ => rfl

/-- An expression is finished exactly if it is a value. -/
theorem canStep_of_isExpression (he : t.isExpression = true) :
    t.canStep = .ok !t.isValue := by
  cases t <;> first | rfl | cases he

theorem stepExpression_eq (s : Store) (t : Term) : stepExpression s t = expression s t := by
  cases he : t.isExpression with
  | false => rw [stepExpression_of_not he, expression, he]; rfl
  | true =>
    have hc := canStep_of_isExpression he
    cases hv : t.isValue with
    | true =>
      rw [hv] at hc
      simp [stepExpression, expectExpression, expression, he, hc, hv, bind, Except.bind]
    | false =>
      rw [hv] at hc
      rw [stepExpression_eq_rule he hc, ← operand_eq_rule, expression, he, hv]
      rfl

/-! ## Statements -/

theorem bind_eq {x : String} {e : Term} (s : Store) :
    (s.bind (.text x) e).map (fun s' => (⟨skip, s'⟩ : State)) =
      match e.value? with
      | some v => .ok ⟨skip, s.put x v⟩
      | none => .error (.valueNotFinished x e) := by
  simp only [Store.bind, Store.accept]
  cases e.value? <;> rfl

/-- Below the root the plain rule and the rule for heads differ only in what they say of the
empty statement, and a head is never that. -/
theorem statement_eq_rule (hs : t ≠ skip) : statement s t = statementRule s t := by
  induction t with
  | skip => exact absurd rfl hs
  | assign x e =>
    show statement s (assign x e) = stepHead s (assign x e)
    cases hc : e.canStep with
    | error f => simp only [statement, stepHead, hc]
    | ok more =>
      cases more with
      | true => simp only [statement, stepHead, hc, stepExpression_eq]
      | false =>
        simp only [statement, stepHead, hc]
        exact (bind_eq s).symm
  | cond c a b =>
    show statement s (cond c a b) = stepHead s (cond c a b)
    rw [statement, ← stepExpression_eq]
    cases c with
    | bool p => cases p <;> rfl
    | _ => rfl
  | seq a b iha _ =>
    rw [statement]
    by_cases ha : a = skip
    · subst ha
      rfl
    · rw [if_neg ha, statementRule_seq ha, iha ha]
      rfl
  | _ => rfl

theorem stepStatement_eq (s : Store) (t : Term) : stepStatement s t = statement s t := by
  cases ht : t.isStatement with
  | false =>
    have hf : statement s t = .error (.notStatement t) := by
      cases t <;> first | rfl | cases ht
    rw [hf]
    simp [stepStatement, expectStatement, ht, bind, Except.bind]
  | true =>
    by_cases hs : t = skip
    · subst hs
      rfl
    · rw [statement_eq_rule hs, ← advance_eq_rule]
      simp [stepStatement, expectStatement, ht, canStep_of_isStatement ht hs, bind, Except.bind]

/-! ## Steps that succeed -/

/-- What a step of a statement can be, if it succeeds. -/
inductive Moves (s : Store) : Term → State → Prop
  | operand {x : String} {e e' : Term} (h : expression s e = .ok e') :
      Moves s (assign x e) ⟨assign x e', s⟩
  | binds (x : String) (v : Value) : Moves s (assign x v.term) ⟨skip, s.put x v⟩
  | condition {c c' a b : Term} (h : expression s c = .ok c') :
      Moves s (.cond c a b) ⟨.cond c' a b, s⟩
  | branch (p : Bool) (a b : Term) : Moves s (.cond (.bool p) a b) ⟨if p then a else b, s⟩
  | second (b : Term) : Moves s (seq skip b) ⟨b, s⟩
  | first {a b : Term} {st : State} (h : Moves s a st) : Moves s (seq a b) (st.followedBy b)
  | unroll (c b : Term) : Moves s (loop c b) ⟨.cond c (seq b (loop c b)) skip, s⟩

theorem Moves.of_statement {st : State} (h : statement s t = .ok st) : Moves s t st := by
  induction t generalizing st with
  | assign x e =>
    rw [statement] at h
    split at h
    · cases h
    · obtain ⟨e', he, rfl⟩ := map_eq_ok_iff.1 h
      exact .operand he
    · split at h
      · rename_i v hv
        cases h
        rw [value?_eq_some_iff.1 hv]
        exact .binds x v
      · cases h
  | cond c a b =>
    rw [statement] at h
    split at h
    · cases h
    · obtain ⟨c', hc, rfl⟩ := map_eq_ok_iff.1 h
      exact .condition hc
    · obtain ⟨t, ht, rfl⟩ := map_eq_ok_iff.1 h
      cases c <;> cases ht
      exact .branch _ a b
  | seq a b iha _ =>
    rw [statement] at h
    split at h
    · rename_i ha
      cases h
      rw [ha]
      exact .second b
    · obtain ⟨st, ha, rfl⟩ := map_eq_ok_iff.1 h
      exact .first (iha ha)
  | loop c b => cases h; exact .unroll c b
  | _ => cases h

/-! ## Unchecked bindings -/

variable {d : Draft}

/-- With bindings that are allowed, an unchecked step is a step in their store. -/
theorem stepExpressionFrom_eq (hd : d.check = .ok s) (t : Term) :
    stepExpressionFrom d t = stepExpression s t := by
  rw [stepExpressionFrom, stepExpression, hd]
  rfl

theorem stepStatementFrom_eq (hd : d.check = .ok s) (t : Term) :
    stepStatementFrom d t = stepStatement s t := by
  rw [stepStatementFrom, stepStatement, hd]
  rfl

/-- **The walk computes the plain rules.** In every store, and on every tree whatever stands
in it, a step of an expression and a step of a statement come to what the plain rules come
to: the same tree and the same store, or the same fault with what it carries. So do the
steps that are handed the bindings of that store unchecked. -/
theorem step_plain (hd : d.check = .ok s) (t : Term) :
    stepExpression s t = expression s t ∧ stepExpressionFrom d t = expression s t ∧
      stepStatement s t = statement s t ∧ stepStatementFrom d t = statement s t := by
  refine ⟨stepExpression_eq s t, ?_, stepStatement_eq s t, ?_⟩
  · rw [stepExpressionFrom_eq hd, stepExpression_eq]
  · rw [stepStatementFrom_eq hd, stepStatement_eq]

/-- A walk goes down a nest of sequences and through a bare infix shape below the root to a
variable, whose value takes its place; a variable without one is the fault. -/
theorem step_plain_nested :
    let d : Draft := Table.ofList [(.text "x", num 2)]
    let s : Store := Table.ofList [("x", .num 2)]
    let e := binary .add (binary .bare (var "x") (binary .less (var "y") (num 1))) (stray .null)
    let t := seq (seq (assign "z" e) (num 4)) (stray (.int 0))
    d.check = .ok s ∧
      stepStatementFrom d t = .ok ⟨seq (seq (assign "z" (binary .add (binary .bare (num 2)
        (binary .less (var "y") (num 1))) (stray .null))) (num 4)) (stray (.int 0)), s⟩ ∧
      stepExpressionFrom d (binary .add (binary .bare (num 2) (var "y")) skip) =
        .error (.unbound (.text "y") s) := by
  intro d s e t
  have hd : d.check = .ok s := rfl
  obtain ⟨-, -, -, ht⟩ := step_plain hd t
  obtain ⟨-, he, -⟩ := step_plain hd (binary .add (binary .bare (num 2) (var "y")) skip)
  exact ⟨hd, ht.trans rfl, he.trans rfl⟩

end Plain

end Stepwise
