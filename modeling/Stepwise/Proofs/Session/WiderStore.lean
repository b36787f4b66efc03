import Stepwise.Proofs.Reduction.Effect
import Stepwise.Proofs.Session.Exits

/-!
# Bindings that a run can do without

A run is started again in a store that binds more: names that the program never mentions, or
names that it reads or assigns to itself. Where the first run got on, the second one does the
same, since each step either looks at one binding, which is there in both stores, or at none.
A name that only the second store binds makes a difference at a failed lookup and nowhere
else.

`State.Widened` relates the states of the two runs; a step keeps it (`Widened.step`), and so
does a run (`Widened.after`). Main statement: `run_widened`.
-/

namespace Stepwise

open Term

variable {s s' : Store} {st st' u : State} {n : Nat} {f : Fault}

/-! ## Stores -/

theorem Store.lookup_eq_ok_iff {x : String} {v : Value} :
    s.lookup (.text x) = .ok v ↔ s.get? x = some v := by
  simp only [lookup, find?]
  cases s.get? x <;> simp

/-- A write to both stores leaves the second one with all that the first one binds. -/
theorem Store.within_put (h : s.within s' = true) (x : String) (v : Value) :
    (s.put x v).within (s'.put x v) = true := by
  rw [Table.within_iff] at h ⊢
  intro y w hy
  rw [Table.get?_put] at hy ⊢
  split at hy
  · rename_i hxy
    rw [if_pos hxy]
    exact hy
  · rename_i hxy
    rw [if_neg hxy]
    exact h y w hy

/-! ## One step -/

/-- The second state has the program of the first, all its bindings, and perhaps more. -/
structure State.Widened (st st' : State) : Prop where
  program : st'.program = st.program
  store : st.store.within st'.store = true

namespace State.Widened

/-- **A step that succeeds** is made with more bindings too, to the same program. -/
theorem step (h : st.Widened st') (hs : st.step = .ok u) :
    ∃ u', st'.step = .ok u' ∧ u.Widened u' := by
  obtain ⟨t, s⟩ := st
  obtain ⟨t', s'⟩ := st'
  obtain ⟨rfl, hwithin⟩ := h
  have he := effect_step t'
  generalize t'.binding? = w at he
  cases he with
  | refuses f _ hstep =>
    cases hs.symm.trans (hstep s)
  | moves t₁ _ hstep =>
    cases hs.symm.trans (hstep s)
    exact ⟨⟨t₁, s'⟩, hstep s', rfl, hwithin⟩
  | reads x k _ _ hstep =>
    obtain ⟨v, hv, rfl⟩ := map_eq_ok_iff.1 ((hstep s).symm.trans hs)
    have hv' : s'.lookup (.text x) = .ok v :=
      Store.lookup_eq_ok_iff.2 (Table.within_iff.1 hwithin x v (Store.lookup_eq_ok_iff.1 hv))
    refine ⟨⟨k v, s'⟩, (hstep s').trans ?_, rfl, hwithin⟩
    rw [hv']
    rfl
  | writes x v t₁ _ _ hstep =>
    cases hs.symm.trans (hstep s)
    exact ⟨⟨t₁, s'.put x v⟩, hstep s', rfl, Store.within_put hwithin x v⟩

/-- **A step that fails**, and not for want of a binding, fails alike. -/
theorem step_error (h : st.Widened st') (hs : st.step = .error f) (hf : f.isUnbound = false) :
    st'.step = .error f := by
  obtain ⟨t, s⟩ := st
  obtain ⟨t', s'⟩ := st'
  obtain ⟨rfl, hwithin⟩ := h
  have he := effect_step t'
  generalize t'.binding? = w at he
  cases he with
  | refuses f' _ hstep =>
    cases hs.symm.trans (hstep s)
    exact hstep s'
  | moves t₁ _ hstep =>
    cases hs.symm.trans (hstep s)
  | reads x k _ _ hstep =>
    have hlookup : s.lookup (.text x) = .error f := map_eq_error_iff.1 ((hstep s).symm.trans hs)
    simp only [Store.lookup] at hlookup
    split at hlookup
    · cases hlookup
    · cases hlookup
      cases hf
  | writes x v t₁ _ _ hstep =>
    cases hs.symm.trans (hstep s)

/-! ## Whole runs -/

theorem after (h : st.Widened st') (ha : State.after n st = .ok u) :
    ∃ u', State.after n st' = .ok u' ∧ u.Widened u' := by
  induction n generalizing st st' with
  | zero =>
    cases ha
    exact ⟨st', rfl, h⟩
  | succ n ih =>
    cases hs : st.step with
    | error f =>
      rw [after_succ_of_error hs] at ha
      cases ha
    | ok st₁ =>
      rw [after_succ_of_step hs] at ha
      obtain ⟨st₁', hs', h₁⟩ := h.step hs
      obtain ⟨u', ha', hu⟩ := ih h₁ ha
      exact ⟨u', (after_succ_of_step hs').trans ha', hu⟩

end State.Widened

namespace Session

variable {t : Term} {limit : Option Int} {j : Nat} {e : Ending} {r : Except Stop History}

/-- An exit other than by a failed lookup is open with more bindings too. -/
theorem Exits.widened (h : s.within s' = true) (hx : (begin t s limit).Exits j st e r)
    (he : ∀ f, e = .stuck f → f.isUnbound = false) :
    ∃ st' r', (begin t s' limit).Exits j st' e r' ∧ st.Widened st' := by
  have hstart : State.Widened ⟨t, s⟩ ⟨t, s'⟩ := ⟨rfl, h⟩
  obtain ⟨st', ha', hst⟩ := hstart.after hx.after
  obtain ⟨es', hes'⟩ := Records.of_after (m := begin t s' limit) ha'
  cases hx with
  | finished _ hc hj _ =>
    rw [← hst.program] at hc
    exact ⟨st', _, .finished ha' hc hj hes', hst⟩
  | stuck _ hc hf hj =>
    rw [← hst.program] at hc
    exact ⟨st', _, .stuck ha' hc (hst.step_error hf (he _ rfl)) hj, hst⟩
  | strayed _ hv hj =>
    rw [← hst.program] at hv
    exact ⟨st', _, .strayed ha' hv hj, hst⟩
  | spent hn _ hc _ =>
    rw [← hst.program] at hc
    exact ⟨st', _, .spent hn ha' hc hes', hst⟩

/-- **More bindings never disturb a run that works.** Let every binding of one store be a
binding of another, which may bind any other names besides. On any tree, whatever number of
steps is made from the first store is made from the second, to the same program and with every
binding of the first run present in the second; and if the first run fails next, and not for
want of a binding, the second one fails with the same fault. So a run that comes to an end, is
stopped by its limit or fails in any such way has a counterpart that does so after the same
number of steps. -/
theorem run_widened (t : Term) (h : s.within s' = true) :
    (∀ k st, State.after k ⟨t, s⟩ = .ok st → ∃ st', State.after k ⟨t, s'⟩ = .ok st' ∧
      st'.program = st.program ∧ st.store.within st'.store = true ∧
      ∀ f, st.step = .error f → f.isUnbound = false → st'.step = .error f) ∧
    ∀ limit j st e r, (begin t s limit).Exits j st e r →
      (∀ f, e = .stuck f → f.isUnbound = false) →
      ∃ st' r', (begin t s' limit).Exits j st' e r' ∧
        st'.program = st.program ∧ st.store.within st'.store = true := by
  constructor
  · intro k st ha
    have hstart : State.Widened ⟨t, s⟩ ⟨t, s'⟩ := ⟨rfl, h⟩
    obtain ⟨st', ha', hst⟩ := hstart.after ha
    exact ⟨st', ha', hst.program, hst.store, fun f hf => hst.step_error hf⟩
  · intro limit j st e r hx he
    obtain ⟨st', r', hx', hst⟩ := hx.widened h he
    exact ⟨st', r', hx', hst.program, hst.store⟩

/-- The second store binds a name that the program assigns to and then reads, to the truth
value that its condition would need. The assignment comes first, and both runs fail in the
condition. -/
theorem run_widened_condition :
    let t := seq (assign "y" (binary .add (var "x") (num 1))) (cond (var "y") skip skip)
    let s : Store := Table.ofList [("x", .num 1)]
    let s' : Store := Table.ofList [("y", .bool true), ("x", .num 1), ("z", .num 5)]
    s.within s' = true ∧
      (∃ st', State.after 5 ⟨t, s'⟩ = .ok st' ∧ st'.program = cond (num 2) skip skip ∧
        st'.store.get? "y" = some (.num 2) ∧ st'.step = .error (.conditionNotTruth (num 2))) ∧
      ∃ st' r', (begin t s' (some 9)).Exits 5 st' (.stuck (.conditionNotTruth (num 2))) r' := by
  intro t s s'
  have h : s.within s' = true := by decide +kernel
  obtain ⟨hsteps, hexits⟩ := run_widened t h
  let st : State := ⟨cond (num 2) skip skip, Table.ofList [("x", .num 1), ("y", .num 2)]⟩
  have ha : State.after 5 ⟨t, s⟩ = .ok st := ok_of_toOption (by decide +kernel)
  have hf : st.step = .error (.conditionNotTruth (num 2)) := rfl
  have hx : (begin t s (some 9)).Exits 5 st _ _ :=
    .stuck ha rfl hf fun n hn => by cases hn; decide
  obtain ⟨st', ha', hprogram, hwithin, hfault⟩ := hsteps 5 st ha
  obtain ⟨st'', r', hx', -⟩ := hexits _ _ _ _ _ hx fun f hf => by cases hf; rfl
  have hget : st'.store.get? "y" = some (.num 2) := Table.within_iff.1 hwithin "y" (.num 2) rfl
  exact ⟨h, ⟨st', ha', hprogram, hget, hfault _ hf rfl⟩, st'', r', hx'⟩

end Session

end Stepwise
