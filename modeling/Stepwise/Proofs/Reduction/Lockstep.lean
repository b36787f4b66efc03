import Stepwise.Proofs.Reduction.Frame
import Stepwise.Catalog

/-!
# Runs that differ in what they do not read

Two runs of one program go in lockstep if their stores agree on the names that the program
reads. They make the same steps and pass through the same programs; they fail together and
for the same reason; and what one of them binds on its way the other binds too, to the same
value. Other names, and the order of the bindings, show nowhere but in the store itself,
which a failed lookup carries with it.

`step_alike` says this of one step and `after_alike` of many. Main statement: `run_alike`.
-/

namespace Stepwise

open Term

/-- The fault with another store in place of the one that it carries, if it carries one. -/
def Fault.inStore (s : Store) : Fault → Fault
  | unbound x _ => unbound x s
  | f => f

/-- Both stores bind each of the names to the same value, or neither binds it. -/
def Store.AgreeOn (V : String → Prop) (s₁ s₂ : Store) : Prop :=
  ∀ x, V x → s₁.get? x = s₂.get? x

/-- One of the first `n` steps binds the name. -/
def State.Binds (n : Nat) (st : State) (x : String) : Prop :=
  ∃ i st' v, i < n ∧ State.after i st = .ok st' ∧ st'.program.binding? = some (x, v)

variable {V W : String → Prop} {t : Term} {s₁ s₂ : Store} {st st₁ st₂ : State} {n : Nat}

/-! ## Faults and stores -/

theorem Fault.inStore_eq_self {f : Fault} (h : f.isUnbound = false) (s : Store) :
    f.inStore s = f := by
  cases f with
  | unbound x s' => cases h
  | _ => rfl

theorem Fault.inStore_inStore (f : Fault) (s s' : Store) :
    (f.inStore s).inStore s' = f.inStore s' := by
  cases f <;> rfl

theorem Store.AgreeOn.mono (h : Store.AgreeOn W s₁ s₂) (hVW : ∀ x, V x → W x) :
    Store.AgreeOn V s₁ s₂ :=
  fun x hx => h x (hVW x hx)

/-- A write of the same value leaves two stores in agreement, on the name written too. -/
theorem Store.AgreeOn.put (h : Store.AgreeOn V s₁ s₂) (x : String) (v : Value) :
    Store.AgreeOn (fun y => V y ∨ x = y) (s₁.put x v) (s₂.put x v) := by
  intro y hy
  rw [Table.get?_put, Table.get?_put]
  by_cases hxy : x = y
  · rw [if_pos hxy, if_pos hxy]
  · rw [if_neg hxy, if_neg hxy]
    exact h y (hy.resolve_right hxy)

/-! ## One step -/

/-- **One step in two stores** that agree on what the program reads: either both make it, to
the same program, or both fail alike. -/
theorem step_alike (hV : ∀ x, t.Reads x → V x) (hs : Store.AgreeOn V s₁ s₂) :
    (∃ t' s₁' s₂', State.step ⟨t, s₁⟩ = .ok ⟨t', s₁'⟩ ∧ State.step ⟨t, s₂⟩ = .ok ⟨t', s₂'⟩ ∧
      Store.AgreeOn (fun x => V x ∨ ∃ v, t.binding? = some (x, v)) s₁' s₂') ∨
    ∃ f : Fault, State.step ⟨t, s₁⟩ = .error (f.inStore s₁) ∧
      State.step ⟨t, s₂⟩ = .error (f.inStore s₂) := by
  have he := effect_step t
  generalize t.binding? = w at he ⊢
  cases he with
  | refuses f hf h =>
    refine .inr ⟨f, ?_, ?_⟩
    · rw [Fault.inStore_eq_self hf]; exact h s₁
    · rw [Fault.inStore_eq_self hf]; exact h s₂
  | moves t' _ h =>
    exact .inl ⟨t', s₁, s₂, h s₁, h s₂, hs.mono fun x hx => hx.resolve_right (by simp)⟩
  | reads x k hx _ h =>
    have hget : s₁.get? x = s₂.get? x := hs x (hV x hx)
    simp only [Store.lookup, Store.find?] at h
    cases hv : s₁.get? x with
    | some v =>
      refine .inl ⟨k v, s₁, s₂, ?_, ?_, hs.mono fun x hx => hx.resolve_right (by simp)⟩
      · rw [h s₁, hv]; rfl
      · rw [h s₂, ← hget, hv]; rfl
    | none =>
      refine .inr ⟨.unbound (.text x) s₁, ?_, ?_⟩
      · rw [h s₁, hv]; rfl
      · rw [h s₂, ← hget, hv]; rfl
  | writes x v t' _ _ h =>
    refine .inl ⟨t', s₁.put x v, s₂.put x v, h s₁, h s₂, (hs.put x v).mono ?_⟩
    rintro y (hy | ⟨_, hw⟩)
    · exact .inl hy
    · exact .inr (Prod.mk.inj (Option.some.inj hw)).1

/-! ## Many steps -/

theorem binds_succ (h : State.after n st = .ok st₁) {x : String} (hx : State.Binds (n + 1) st x) :
    State.Binds n st x ∨ ∃ v, st₁.program.binding? = some (x, v) := by
  obtain ⟨i, st', v, hi, ha, hb⟩ := hx
  rcases Nat.lt_succ_iff_lt_or_eq.1 hi with hi | rfl
  · exact .inl ⟨i, st', v, hi, ha, hb⟩
  · cases ha.symm.trans h
    exact .inr ⟨v, hb⟩

/-- **Many steps in two stores** that agree on what the program reads: either both runs make
them, to the same program, or neither does. -/
theorem after_alike (hV : ∀ x, t.Reads x → V x) (hs : Store.AgreeOn V s₁ s₂) (n : Nat) :
    (∃ t' s₁' s₂', State.after n ⟨t, s₁⟩ = .ok ⟨t', s₁'⟩ ∧
      State.after n ⟨t, s₂⟩ = .ok ⟨t', s₂'⟩ ∧
      Store.AgreeOn (fun x => V x ∨ State.Binds n ⟨t, s₁⟩ x) s₁' s₂') ∨
    ∃ f₁ f₂, State.after n ⟨t, s₁⟩ = .error f₁ ∧ State.after n ⟨t, s₂⟩ = .error f₂ := by
  induction n with
  | zero =>
    refine .inl ⟨t, s₁, s₂, rfl, rfl, hs.mono fun x hx => hx.resolve_right ?_⟩
    rintro ⟨i, _, _, hi, -⟩
    exact Nat.not_lt_zero i hi
  | succ n ih =>
    rw [State.after_add, State.after_add]
    rcases ih with ⟨t', s₁', s₂', h₁, h₂, hagree⟩ | ⟨f₁, f₂, h₁, h₂⟩
    · rw [h₁, h₂]
      -- No step brings in a name to read, so the agreement covers the next step too.
      have hV' : ∀ x, t'.Reads x → V x ∨ State.Binds n ⟨t, s₁⟩ x :=
        fun x hx => .inl (hV x ((extension_after h₁).mentions hx))
      simp only [Except.bind, State.after_one]
      rcases step_alike hV' hagree with ⟨t'', s₁'', s₂'', h₁', h₂', hagree'⟩ | ⟨f, h₁', h₂'⟩
      · refine .inl ⟨t'', s₁'', s₂'', h₁', h₂', hagree'.mono ?_⟩
        rintro x (hx | hx)
        · exact .inl (.inl hx)
        · exact (binds_succ h₁ hx).imp_left .inr
      · exact .inr ⟨_, _, h₁', h₂'⟩
    · rw [h₁, h₂]
      exact .inr ⟨f₁, f₂, rfl, rfl⟩

/-- **What a program does not read makes no difference.** Let two stores agree on a set of
names that has every variable of the program in it. Then the run in the one makes `k` steps
exactly when the run in the other does. The programs after `k` steps are the same, and the
stores agree on those names and on all that have been bound by then. If one of the runs
fails next, so does the other, with the same fault but for the store that it carries. -/
theorem run_alike (hV : ∀ x, t.Reads x → V x) (hs : Store.AgreeOn V s₁ s₂) (k : Nat) :
    ((∃ st₁, State.after k ⟨t, s₁⟩ = .ok st₁) ↔ ∃ st₂, State.after k ⟨t, s₂⟩ = .ok st₂) ∧
    ∀ st₁ st₂, State.after k ⟨t, s₁⟩ = .ok st₁ → State.after k ⟨t, s₂⟩ = .ok st₂ →
      st₁.program = st₂.program ∧
      Store.AgreeOn (fun x => V x ∨ State.Binds k ⟨t, s₁⟩ x) st₁.store st₂.store ∧
      (∀ f, st₁.step = .error f → st₂.step = .error (f.inStore st₂.store)) ∧
      (∀ f, st₂.step = .error f → st₁.step = .error (f.inStore st₁.store)) := by
  rcases after_alike hV hs k with ⟨t', s₁', s₂', h₁, h₂, hagree⟩ | ⟨f₁, f₂, h₁, h₂⟩
  · refine ⟨⟨fun _ => ⟨_, h₂⟩, fun _ => ⟨_, h₁⟩⟩, ?_⟩
    intro st₁ st₂ hst₁ hst₂
    cases h₁.symm.trans hst₁
    cases h₂.symm.trans hst₂
    have hV' : ∀ x, t'.Reads x → V x ∨ State.Binds k ⟨t, s₁⟩ x :=
      fun x hx => .inl (hV x ((extension_after h₁).mentions hx))
    refine ⟨rfl, hagree, ?_⟩
    rcases step_alike hV' hagree with ⟨t'', s₁'', s₂'', h₁', h₂', -⟩ | ⟨f, h₁', h₂'⟩
    · rw [h₁', h₂']
      exact ⟨nofun, nofun⟩
    · rw [h₁', h₂']
      constructor
      · intro f' hf'
        cases hf'
        rw [Fault.inStore_inStore]
      · intro f' hf'
        cases hf'
        rw [Fault.inStore_inStore]
  · refine ⟨⟨?_, ?_⟩, ?_⟩
    · rintro ⟨st₁, h⟩
      cases h₁.symm.trans h
    · rintro ⟨st₂, h⟩
      cases h₂.symm.trans h
    · intro st₁ st₂ h
      cases h₁.symm.trans h

/-- The loop that triples a variable and a lookup behind it, in two stores that bind other
names in other places: the loop ends in both, and the lookup fails in both. -/
theorem run_alike_tripling :
    let t := seq Catalog.tripling (assign "y" (var "z"))
    let s₁ : Store := Table.ofList [("x", .num 1), ("w", .bool true)]
    let s₂ : Store := Table.ofList [("y", .num 7), ("x", .num 1)]
    (∀ x, t.Reads x → x = "x" ∨ x = "z") ∧
      Store.AgreeOn (fun x => x = "x" ∨ x = "z") s₁ s₂ ∧
      ∃ st₂, State.after 21 ⟨t, s₂⟩ = .ok st₂ ∧ st₂.program = assign "y" (var "z") ∧
        st₂.store.get? "x" = some (.num 9) ∧
        st₂.step = .error (.unbound (.text "z") st₂.store) := by
  intro t s₁ s₂
  have hV : ∀ x, t.Reads x → x = "x" ∨ x = "z" := by
    simp [t, Reads, mentions, Catalog.tripling]
  have hs : Store.AgreeOn (fun x => x = "x" ∨ x = "z") s₁ s₂ := by
    rintro x (rfl | rfl) <;> rfl
  obtain ⟨hsteps, hrun⟩ := run_alike hV hs 21
  have h₁ : State.after 21 ⟨t, s₁⟩ = .ok ⟨assign "y" (var "z"),
      Table.ofList [("x", .num 9), ("w", .bool true)]⟩ := ok_of_toOption (by decide +kernel)
  obtain ⟨st₂, h₂⟩ := hsteps.1 ⟨_, h₁⟩
  obtain ⟨hprogram, hagree, hfault, -⟩ := hrun _ st₂ h₁ h₂
  exact ⟨hV, hs, st₂, h₂, hprogram.symm, (hagree "x" (.inl (.inl rfl))).symm, hfault _ rfl⟩

end Stepwise
