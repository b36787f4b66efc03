import Stepwise.Proofs.Reduction.Effect
import Stepwise.Proofs.Reduction.Evaluate

/-!
# What a run leaves alone

A step changes the store only where an assignment of a value stands first, and then at the
assigned name only. Over a run of any length no name is lost and none is moved, and only
names that the program assigned to from the start are ever added or changed; unrolling a
loop copies its assignments and invents none.

`Extension` says this of a state and one that follows it. A step establishes it
(`Extension.of_step`), and a run does (`extension_after`). Main statement: `run_frame`.
-/

namespace Stepwise

open Term

variable {t : Term} {s : Store} {st st' st'' : State} {i j n : Nat}

/-! ## What a state keeps -/

/-- What a state keeps of one that comes before it. -/
structure Extension (st st' : State) : Prop where
  /-- The program mentions no name that it did not mention. -/
  mentions : st'.program.mentions ⊆ st.program.mentions
  /-- The names bound before come first, in their order. -/
  keys : st.store.keys <+: st'.store.keys
  /-- What the program does not assign to keeps its value, or stays without one. -/
  untouched : ∀ x, ¬ st.program.Assigns x → st'.store.get? x = st.store.get? x

namespace Extension

theorem refl (st : State) : Extension st st := ⟨List.Subset.refl _, List.prefix_rfl, fun _ _ => rfl⟩

theorem trans (h : Extension st st') (h' : Extension st' st'') : Extension st st'' where
  mentions := List.Subset.trans h'.mentions h.mentions
  keys := h.keys.trans h'.keys
  untouched x hx := by
    have hx' : ¬ st'.program.Assigns x := fun ha => hx (h.mentions ha)
    rw [h'.untouched x hx', h.untouched x hx]

theorem of_step (h : st.step = .ok st') : Extension st st' := by
  obtain ⟨hm, hs⟩ := State.step_effect h
  split at hs
  · exact ⟨hm, by simp only [hs, List.prefix_rfl], fun x _ => by rw [hs]⟩
  · rename_i x v _
    obtain ⟨ha, hs⟩ := hs
    refine ⟨hm, by simp only [hs, Table.keys_prefix_put], ?_⟩
    intro y hy
    have hxy : x ≠ y := fun e => hy (e ▸ ha)
    rw [hs, Table.get?_put, if_neg hxy]

/-- A name that is new is one that the program assigns to. -/
theorem assigns_of_added (h : Extension st st') {x : String} (hx : x ∈ st'.store.keys)
    (hn : x ∉ st.store.keys) : st.program.Assigns x := by
  apply Decidable.byContradiction
  intro ha
  have hget := h.untouched x ha
  rw [Table.get?_eq_none_iff.2 hn] at hget
  exact Table.get?_eq_none_iff.1 hget hx

end Extension

theorem extension_after (h : State.after n st = .ok st') : Extension st st' :=
  State.after_induction (P := Extension st) (fun hf hs => hf.trans (.of_step hs)) (.refl st) h

/-! ## Expressions -/

/-- A step turns no expression into a statement. -/
theorem isStatement_of_rule {t' : Term} (h : expressionRule s t = .ok t') :
    t'.isStatement = false := by
  cases t with
  | var x =>
    obtain ⟨v, -, rfl⟩ := map_eq_ok_iff.1 h
    cases v <;> rfl
  | binary op l r =>
    cases operandTurn s op l r with
    | leftStrayed _ hs => rw [hs] at h; cases h
    | left _ hs =>
      rw [hs] at h
      obtain ⟨l', -, rfl⟩ := map_eq_ok_iff.1 h
      rfl
    | rightStrayed _ _ hs => rw [hs] at h; cases h
    | right _ _ hs =>
      rw [hs] at h
      obtain ⟨r', -, rfl⟩ := map_eq_ok_iff.1 h
      rfl
    | both _ _ hs =>
      rw [hs] at h
      obtain ⟨v, rfl, -⟩ := apply_eq_term (combine_eq_apply op l r ▸ h)
      cases v <;> rfl
  | _ => cases h

/-- A run of an expression stays with expressions and leaves the store alone. -/
theorem after_of_expression (ht : t.isStatement = false)
    (h : State.after n ⟨t, s⟩ = .ok st) : st.program.isStatement = false ∧ st.store = s := by
  refine State.after_induction (P := fun st => st.program.isStatement = false ∧ st.store = s)
    ?_ ⟨ht, rfl⟩ h
  intro st st' hst hs
  obtain ⟨hp, rfl⟩ := hst
  obtain ⟨t', ht', rfl⟩ := map_eq_ok_iff.1 ((State.step_of_expression hp).symm.trans hs)
  exact ⟨isStatement_of_rule (stepExpression_ok ht').2, rfl⟩

/-! ## Runs of any program -/

/-- A nest of sequences fails as its foremost statement does. -/
theorem statementRule_of_foremost {f : Fault} (hs : t.foremost ≠ skip)
    (h : stepHead s t.foremost = .error f) : statementRule s t = .error f := by
  induction t with
  | seq a b iha _ =>
    have ha : a ≠ skip := fun e => hs (by rw [e]; rfl)
    rw [statementRule_seq ha, iha hs h]
    rfl
  | _ => exact h

/-- A finished term that is no value is never bound: the assignment is refused. -/
theorem step_of_unfinished {x : String} {e : Term} (hx : st.program.foremost = assign x e)
    (hc : e.canStep = .ok false) (he : e.value? = none) :
    st.step = .error (.valueNotFinished x e) := by
  have hs : st.program ≠ skip := fun h => by rw [h] at hx; cases hx
  have ht : st.program.isStatement = true := by
    obtain ⟨t, s⟩ := st
    cases t <;> first | rfl | cases hx
  have hhead : stepHead st.store (assign x e) = .error (.valueNotFinished x e) := by
    simp [stepHead, hc, Store.bind, Store.accept, he, Except.map]
  rw [State.step_of_statement st.program ht hs]
  exact statementRule_of_foremost (by simp [hx]) (by rw [hx]; exact hhead)

/-- **What a run leaves alone.** Every store that a run reaches holds allowed bindings. A
step leaves the store as it was, unless the foremost statement is the assignment of a value:
then it succeeds and writes the one name; a finished term that is no value is refused. Over
a run of any length the names of an earlier store stand at the front of those of a later
one; whatever name is new, or has another value, is one that the program assigned to from
the start. An expression leaves the store alone altogether. -/
theorem run_frame (t : Term) (s : Store) :
    (∀ n st, State.after n ⟨t, s⟩ = .ok st → (Draft.ofStore st.store).check = .ok st.store) ∧
    (∀ n st, State.after n ⟨t, s⟩ = .ok st →
      (∀ st', st.step = .ok st' → (∀ x (v : Value), st.program.foremost ≠ assign x v.term) →
        st'.store = st.store) ∧
      (∀ x (v : Value), st.program.foremost = assign x v.term →
        ∃ t', st.step = .ok ⟨t', st.store.put x v⟩) ∧
      (∀ x e, st.program.foremost = assign x e → e.canStep = .ok false → e.value? = none →
        st.step = .error (.valueNotFinished x e))) ∧
    (∀ i j st st', i ≤ j → State.after i ⟨t, s⟩ = .ok st → State.after j ⟨t, s⟩ = .ok st' →
      st.store.keys <+: st'.store.keys ∧
      (∀ x, x ∈ st'.store.keys → x ∉ st.store.keys → t.Assigns x) ∧
      (∀ x, st'.store.get? x ≠ st.store.get? x → t.Assigns x)) ∧
    (t.isStatement = false → ∀ n st, State.after n ⟨t, s⟩ = .ok st → st.store = s) := by
  refine ⟨fun n st _ => Draft.check_ofStore st.store, ?_, ?_, ?_⟩
  · intro n st _
    refine ⟨?_, ?_, fun x e => step_of_unfinished⟩
    · intro st' h hx
      have hs := (State.step_effect h).2
      rwa [binding?_eq_none_iff.2 hx] at hs
    · intro x v hx
      exact State.step_of_binding (binding?_eq_some_iff.2 hx)
  · intro i j st st' hij hi hj
    have hmentions : st.program.mentions ⊆ t.mentions := (extension_after hi).mentions
    obtain ⟨st₁, hst₁, hrest⟩ := State.after_of_le hij hj
    cases hi.symm.trans hst₁
    have hf : Extension st st' := extension_after hrest
    refine ⟨hf.keys, ?_, ?_⟩
    · intro x hx hn
      exact hmentions (hf.assigns_of_added hx hn)
    · intro x hx
      exact hmentions (Decidable.byContradiction fun ha => hx (hf.untouched x ha))
  · intro ht n st h
    exact (after_of_expression ht h).2

end Stepwise
