import Stepwise.Proofs.Reduction.After
import Stepwise.Proofs.Reduction.Value

/-!
# What a step does with the store

A step of a program does one of four things, and which one it is does not depend on the
store: it fails, it moves on without a look at the store, it reads one variable and puts
the value in its place, or it writes one name. `Effect` has a constructor for each.

Main statement: `effect_step`. What a step keeps, reads and writes is derived from it and
from nothing else: it mentions no new name and writes only where an assignment of a value
stands first (`State.step_effect`), and a failed lookup is one of a variable that the
program reads (`State.step_unbound`).
-/

namespace Stepwise

/-! ## The names in a program -/

/-- How a program can mention a name. -/
inductive Mention
  | read (x : String)
  | write (x : String)
  deriving DecidableEq

namespace Term

/-- The names of the variables in a tree and of its assignments. -/
def mentions : Term → List Mention
  | var x => [.read x]
  | num _ | bool _ | skip | stray _ => []
  | binary _ l r => l.mentions ++ r.mentions
  | assign x e => .write x :: e.mentions
  | cond c a b => c.mentions ++ (a.mentions ++ b.mentions)
  | seq a b => a.mentions ++ b.mentions
  | loop c b => c.mentions ++ b.mentions

/-- A variable of this name stands in the tree. -/
def Reads (t : Term) (x : String) : Prop := .read x ∈ t.mentions

/-- An assignment to this name stands in the tree. -/
def Assigns (t : Term) (x : String) : Prop := .write x ∈ t.mentions

instance (t : Term) (x : String) : Decidable (t.Reads x) :=
  inferInstanceAs (Decidable (_ ∈ _))

instance (t : Term) (x : String) : Decidable (t.Assigns x) :=
  inferInstanceAs (Decidable (_ ∈ _))

@[simp] theorem mentions_term (v : Value) : v.term.mentions = [] := by
  cases v <;> rfl

/-- The statement at the innermost head of a nest of sequences. -/
def foremost : Term → Term
  | seq a _ => a.foremost
  | t => t

/-- The name and the value that the next step binds, if the foremost statement is the
assignment of a value. -/
def binding? (t : Term) : Option (String × Value) :=
  match t.foremost with
  | assign x e => e.value?.map fun v => (x, v)
  | _ => none

theorem binding?_eq_some_iff {t : Term} {x : String} {v : Value} :
    t.binding? = some (x, v) ↔ t.foremost = assign x v.term := by
  unfold binding?
  split
  · rename_i y e hy
    simp only [hy, Option.map_eq_some_iff, Prod.mk.injEq, assign.injEq, value?_eq_some_iff]
    constructor
    · rintro ⟨w, rfl, rfl, rfl⟩
      exact ⟨rfl, rfl⟩
    · rintro ⟨rfl, rfl⟩
      exact ⟨v, rfl, rfl, rfl⟩
  · rename_i hne
    simpa using hne x v.term

theorem binding?_eq_none_iff {t : Term} :
    t.binding? = none ↔ ∀ x (v : Value), t.foremost ≠ assign x v.term := by
  simp only [Option.eq_none_iff_forall_ne_some, Prod.forall, ne_eq, binding?_eq_some_iff]

theorem binding?_of_expression {t : Term} (h : t.isStatement = false) : t.binding? = none := by
  cases t <;> first | rfl | cases h

/-- An assignment whose expression has a step left binds nothing yet. -/
theorem binding?_assign {x : String} {e : Term} (h : e.canStep ≠ .ok false) :
    (assign x e).binding? = none := by
  rw [binding?_eq_none_iff]
  intro y v hv
  cases hv
  exact h (canStep_term v)

end Term

open Term

/-! ## Effects -/

/-- Whether the fault is that of a failed lookup. -/
def Fault.isUnbound : Fault → Bool
  | unbound .. => true
  | _ => false

/-- The state with its program put inside a larger one. -/
def State.inside (K : Term → Term) (st : State) : State := { st with program := K st.program }

/-- What a step of the tree `t`, as a function of the store, does with the store. `binding`
is what it binds. -/
inductive Effect (t : Term) : (binding : Option (String × Value)) →
    (step : Store → Except Fault State) → Prop
  /-- It fails in every store, and not for want of a binding. -/
  | refuses {step} (f : Fault) (hf : f.isUnbound = false) (h : ∀ s, step s = .error f) :
      Effect t none step
  /-- It goes on in every store, and leaves the store alone. -/
  | moves {step} (t' : Term) (hm : t'.mentions ⊆ t.mentions) (h : ∀ s, step s = .ok ⟨t', s⟩) :
      Effect t none step
  /-- It looks one variable up and goes on with its value. -/
  | reads {step} (x : String) (k : Value → Term) (hx : t.Reads x)
      (hm : ∀ v, (k v).mentions ⊆ t.mentions)
      (h : ∀ s, step s = (s.lookup (.text x)).map fun v => ⟨k v, s⟩) : Effect t none step
  /-- It goes on in every store, and binds one name. -/
  | writes {step} (x : String) (v : Value) (t' : Term) (hx : t.Assigns x)
      (hm : t'.mentions ⊆ t.mentions) (h : ∀ s, step s = .ok ⟨t', s.put x v⟩) :
      Effect t (some (x, v)) step

namespace Effect

variable {t u : Term} {w : Option (String × Value)} {step step' : Store → Except Fault State}

theorem congr (h : Effect t w step) (hs : ∀ s, step' s = step s) : Effect t w step' :=
  funext hs ▸ h

/-- A step of a part of a tree has the effect of the step: what stands around the part,
here by the names it mentions, stays as it is. -/
theorem inside (K : Term → Term) (front rest : List Mention)
    (hK : ∀ u, (K u).mentions = front ++ u.mentions ++ rest) (h : Effect u w step) :
    Effect (K u) w fun s => (step s).map (State.inside K) := by
  have hmono : ∀ {u'}, u'.mentions ⊆ u.mentions → (K u').mentions ⊆ (K u).mentions := by
    intro u' hu' x
    simp only [hK, List.mem_append]
    exact Or.imp_left (Or.imp_right (@hu' x))
  have hmem : ∀ {x}, x ∈ u.mentions → x ∈ (K u).mentions := by
    intro x hx
    simp only [hK, List.mem_append]
    exact .inl (.inr hx)
  cases h with
  | refuses f hf h => exact .refuses f hf fun s => by rw [h]; rfl
  | moves u' hm h => exact .moves (K u') (hmono hm) fun s => by rw [h]; rfl
  | reads x k hx hm h =>
    refine .reads x (fun v => K (k v)) (hmem hx) (fun v => hmono (hm v)) fun s => ?_
    rw [h]
    cases s.lookup (.text x) <;> rfl
  | writes x v u' hx hm h => exact .writes x v (K u') (hmem hx) (hmono hm) fun s => by rw [h]; rfl

end Effect

/-! ## Every step has an effect -/

theorem isUnbound_of_strayed {t : Term} {f : Fault} (h : t.canStep = .error f) :
    f.isUnbound = false := by
  obtain ⟨v, -, rfl⟩ := canStep_eq_error_iff.1 h
  rfl

theorem isUnbound_of_combine {op : Op} {l r : Term} {f : Fault}
    (h : combine op l r = .error f) : f.isUnbound = false := by
  unfold combine at h
  split at h
  · cases h; rfl
  · split at h
    · cases h
    · cases h; rfl

/-- The rule for operands reads at most one variable and writes nothing. -/
theorem effect_rule (t : Term) :
    Effect t none fun s => (expressionRule s t).map fun t' => ⟨t', s⟩ := by
  induction t with
  | var x =>
    refine .reads x Value.term (List.mem_singleton_self _) (fun v => by simp) fun s => ?_
    simp only [expressionRule, contract]
    cases s.lookup (.text x) <;> rfl
  | binary op l r ihl ihr =>
    -- The operand that steps decides the effect, and the operator carries it outwards.
    cases hl : l.canStep with
    | error f =>
      exact .refuses f (isUnbound_of_strayed hl) fun s => by rw [expressionRule, hl]; rfl
    | ok more =>
      cases more with
      | true =>
        refine (ihl.inside (binary op · r) [] r.mentions fun _ => rfl).congr fun s => ?_
        rw [expressionRule, hl]
        cases expressionRule s l <;> rfl
      | false =>
        cases hr : r.canStep with
        | error f =>
          exact .refuses f (isUnbound_of_strayed hr) fun s => by rw [expressionRule, hl, hr]; rfl
        | ok more =>
          cases more with
          | true =>
            refine (ihr.inside (binary op l ·) l.mentions [] fun _ => by simp [mentions]).congr
              fun s => ?_
            rw [expressionRule, hl, hr]
            cases expressionRule s r <;> rfl
          | false =>
            cases hc : combine op l r with
            | error f =>
              exact .refuses f (isUnbound_of_combine hc) fun s => by
                rw [expressionRule, hl, hr, hc]; rfl
            | ok t' =>
              obtain ⟨v, rfl, -⟩ := apply_eq_term (combine_eq_apply op l r ▸ hc)
              refine .moves v.term (by simp) fun s => ?_
              rw [expressionRule, hl, hr, hc]
              rfl
  | _ => exact .refuses (.notExpression _) rfl fun s => rfl

theorem effect_stepExpression (t : Term) :
    Effect t none fun s => (stepExpression s t).map fun t' => ⟨t', s⟩ := by
  cases he : t.isExpression with
  | false =>
    exact .refuses (.notExpression t) rfl fun s => by rw [stepExpression_of_not he]; rfl
  | true =>
    cases hc : t.canStep with
    | error f =>
      refine .refuses f (isUnbound_of_strayed hc) fun s => ?_
      simp [stepExpression, expectExpression, he, hc, bind, Except.bind, Except.map]
    | ok more =>
      cases more with
      | false =>
        refine .refuses (.irreducible t) rfl fun s => ?_
        simp [stepExpression, expectExpression, he, hc, bind, Except.bind, Except.map]
      | true => exact (effect_rule t).congr fun s => by rw [stepExpression_eq_rule he hc]

/-- The rule for statements binds what the foremost statement says, and nothing else. -/
theorem effect_statementRule (t : Term) : Effect t t.binding? fun s => statementRule s t := by
  induction t with
  | assign x e =>
    cases hc : e.canStep with
    | error f =>
      rw [binding?_assign (by simp [hc])]
      exact .refuses f (isUnbound_of_strayed hc) fun s => by simp [statementRule, stepHead, hc]
    | ok more =>
      cases more with
      | true =>
        rw [binding?_assign (by simp [hc])]
        refine ((effect_stepExpression e).inside (assign x ·) [.write x] []
          fun _ => by simp [mentions]).congr fun s => ?_
        simp only [statementRule, stepHead, hc]
        cases stepExpression s e <;> rfl
      | false =>
        rcases canStep_eq_false_iff.1 hc with rfl | ⟨v, rfl⟩
        · exact .refuses (.valueNotFinished x skip) rfl fun s => rfl
        · rw [binding?_eq_some_iff.2 rfl]
          refine .writes x v skip List.mem_cons_self (List.nil_subset _) fun s => ?_
          simp [statementRule, stepHead, Store.bind, Store.accept, Except.map]
  | cond c a b =>
    cases hc : c.canStep with
    | error f =>
      exact .refuses f (isUnbound_of_strayed hc) fun s => by simp [statementRule, stepHead, hc]
    | ok more =>
      cases more with
      | true =>
        refine ((effect_stepExpression c).inside (cond · a b) [] (a.mentions ++ b.mentions)
          fun _ => rfl).congr fun s => ?_
        simp only [statementRule, stepHead, hc]
        cases stepExpression s c <;> rfl
      | false =>
        rcases canStep_eq_false_iff.1 hc with rfl | ⟨v, rfl⟩
        · exact .refuses (.conditionNotTruth skip) rfl fun s => rfl
        · cases v with
          | num n => exact .refuses (.conditionNotTruth (num n)) rfl fun s => rfl
          | bool p =>
            cases p with
            | true =>
              refine .moves a ?_ fun s => rfl
              exact List.subset_append_left _ _
            | false =>
              refine .moves b ?_ fun s => rfl
              exact List.subset_append_right _ _
  | seq a b iha _ =>
    by_cases ha : a = skip
    · subst ha
      exact .moves b (List.Subset.refl _) fun s => rfl
    · exact (iha.inside (seq · b) [] b.mentions fun _ => rfl).congr fun s => statementRule_seq ha
  | loop c b =>
    refine .moves _ ?_ fun s => rfl
    simp [mentions]
  | _ => exact .refuses (.notStatement _) rfl fun s => rfl

/-- **What a step does with the store**, on every tree. -/
theorem effect_step (t : Term) : Effect t t.binding? fun s => State.step ⟨t, s⟩ := by
  cases ht : t.isStatement with
  | true =>
    by_cases hs : t = skip
    · subst hs
      exact .refuses (.irreducible skip) rfl fun s => rfl
    · exact (effect_statementRule t).congr fun s => State.step_of_statement t ht hs
  | false =>
    rw [binding?_of_expression ht]
    exact (effect_stepExpression t).congr fun s => State.step_of_expression ht

/-! ## What follows for one step -/

namespace State

variable {st st' : State}

/-- A step mentions no new name. It binds what the foremost statement says, and leaves the
store alone where that is nothing. -/
theorem step_effect (h : st.step = .ok st') :
    st'.program.mentions ⊆ st.program.mentions ∧
      match st.program.binding? with
      | none => st'.store = st.store
      | some (x, v) => st.program.Assigns x ∧ st'.store = st.store.put x v := by
  have he := effect_step st.program
  generalize st.program.binding? = w at he ⊢
  cases he with
  | refuses f _ hs => cases h.symm.trans (hs st.store)
  | moves t' hm hs => cases h.symm.trans (hs st.store); exact ⟨hm, rfl⟩
  | reads x k _ hm hs =>
    obtain ⟨v, -, rfl⟩ := map_eq_ok_iff.1 ((hs st.store).symm.trans h)
    exact ⟨hm v, rfl⟩
  | writes x v t' hx hm hs => cases h.symm.trans (hs st.store); exact ⟨hm, hx, rfl⟩

/-- An assignment of a value always succeeds. -/
theorem step_of_binding {x : String} {v : Value} (h : st.program.binding? = some (x, v)) :
    ∃ t, st.step = .ok ⟨t, st.store.put x v⟩ := by
  have he := effect_step st.program
  rw [h] at he
  cases he with
  | writes _ _ t _ _ hs => exact ⟨t, hs st.store⟩

/-- A failed lookup is one of a variable that the program reads and the store does not
bind. -/
theorem step_unbound {name : Scalar} {s : Store} (h : st.step = .error (.unbound name s)) :
    s = st.store ∧ ∃ x, name = .text x ∧ st.program.Reads x ∧ st.store.get? x = none := by
  have he := effect_step st.program
  generalize st.program.binding? = w at he
  cases he with
  | refuses f hf hs => cases h.symm.trans (hs st.store); cases hf
  | moves t' _ hs => cases h.symm.trans (hs st.store)
  | reads x k hx _ hs =>
    have hl := map_eq_error_iff.1 ((hs st.store).symm.trans h)
    unfold Store.lookup Store.find? at hl
    split at hl
    · cases hl
    · rename_i hnone
      cases hl
      exact ⟨rfl, x, rfl, hx, hnone⟩
  | writes x v t' _ _ hs => cases h.symm.trans (hs st.store)

end State

end Stepwise
