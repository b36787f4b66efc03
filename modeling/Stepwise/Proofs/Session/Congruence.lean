import Stepwise.Proofs.Reduction.Context
import Stepwise.Proofs.Session.Agreement

/-!
# Equivalent statements stay equivalent in context

A program that a session runs without a limit has one of three fates: it comes to its end
in a store, it fails with a fault, or it never ends. Two proper statements that have the
same fate in every store may stand for one another in every proper context, although they
may take different numbers of steps and pass through different programs.

The fates are those of the big-step judgment (`finishes_iff`, `fails_iff`,
`endless_iff_gives`), where a context is dealt with one layer at a time.

Main statement: `alike_fill`.
-/

namespace Stepwise.Session

open Term

/-- What becomes of a program. -/
inductive Fate
  /-- It comes to its end in this store. -/
  | finishes (s : Store)
  | fails (f : Fault)
  | endless
  deriving DecidableEq

/-- What becomes of a program that is started in the store `s` and run without a limit. -/
def Meets (t : Term) (s : Store) : Fate → Prop
  | .finishes s' => ∃ h m', (begin t s none).Ends (.ok h) m' ∧ m'.state.store = s'
  | .fails f => ∃ m', (begin t s none).Ends (.error (.fault f)) m'
  | .endless => (begin t s none).Endless

/-- Both programs have the same fate in every store. -/
def Alike (t t' : Term) : Prop := ∀ s o, Meets t s o ↔ Meets t' s o

variable {t a a' : Term} {s s' : Store} {f : Fault} {o o' : Fate}
  {m m' m'' : Session} {r r' : Except Stop History}

/-! ## Every program has at most one fate -/

theorem Ends.unique (h : m.Ends r m') (h' : m.Ends r' m'') : r = r' ∧ m' = m'' := by
  obtain ⟨j, st, e, hx, rfl⟩ := ends_iff_exits.1 h
  obtain ⟨j', st', e', hx', rfl⟩ := ends_iff_exits.1 h'
  obtain ⟨rfl, rfl, -, rfl⟩ := hx.unique hx'
  exact ⟨rfl, rfl⟩

theorem Ends.not_endless (h : m.Ends r m') : ¬ m.Endless := by
  intro hend
  obtain ⟨fuel, report, hrun, -⟩ := h
  rw [hend fuel] at hrun
  cases hrun

theorem Meets.unique (h : Meets t s o) (h' : Meets t s o') : o = o' := by
  cases o with
  | finishes s₁ =>
    obtain ⟨_, _, hends, rfl⟩ := h
    cases o' with
    | finishes s₂ =>
      obtain ⟨_, _, hends', rfl⟩ := h'
      rw [(hends.unique hends').2]
    | fails f =>
      obtain ⟨_, hends'⟩ := h'
      cases (hends.unique hends').1
    | endless => exact absurd h' hends.not_endless
  | fails f =>
    obtain ⟨_, hends⟩ := h
    cases o' with
    | finishes s₂ =>
      obtain ⟨_, _, hends', -⟩ := h'
      cases (hends.unique hends').1
    | fails f' =>
      obtain ⟨_, hends'⟩ := h'
      cases (hends.unique hends').1
      rfl
    | endless => exact absurd h' hends.not_endless
  | endless =>
    cases o' with
    | finishes s₂ =>
      obtain ⟨_, _, hends', -⟩ := h'
      exact absurd h hends'.not_endless
    | fails f =>
      obtain ⟨_, hends'⟩ := h'
      exact absurd h hends'.not_endless
    | endless => rfl

/-! ## Fates and the judgment -/

theorem finishes_iff (ht : ProperStatement t) :
    Meets t s (.finishes s') ↔ Gives t s (.ok s') := by
  constructor
  · rintro ⟨h, m', hends, rfl⟩
    obtain ⟨n, st, e, hx, rfl⟩ := ends_iff_exits.1 hends
    rcases proper_exits ht hx with ⟨s', es, rfl, rfl, hr⟩ | ⟨f, -, hr⟩
    · cases hr
      exact ⟨n, (runs_ok_iff ht).2 ⟨es, hx⟩⟩
    · cases hr
  · rintro ⟨n, h⟩
    obtain ⟨es, hx⟩ := (runs_ok_iff ht).1 h
    exact ⟨_, _, ends_iff_exits.2 ⟨n, _, _, hx, rfl⟩, rfl⟩

theorem fails_iff (ht : ProperStatement t) : Meets t s (.fails f) ↔ Gives t s (.error f) := by
  constructor
  · rintro ⟨m', hends⟩
    obtain ⟨n, st, e, hx, rfl⟩ := ends_iff_exits.1 hends
    rcases proper_exits ht hx with ⟨s', es, -, -, hr⟩ | ⟨f, rfl, hr⟩
    · cases hr
    · cases hr
      exact ⟨n, (runs_error_iff ht).2 ⟨st, hx⟩⟩
  · rintro ⟨n, h⟩
    obtain ⟨st, hx⟩ := (runs_error_iff ht).1 h
    exact ⟨_, ends_iff_exits.2 ⟨n, _, _, hx, rfl⟩⟩

theorem endless_iff_gives (ht : ProperStatement t) :
    Meets t s .endless ↔ ∀ r, ¬ Gives t s r := by
  rw [Meets, endless_iff_not_exits, exits_iff_runs ht]
  constructor
  · intro h r hr
    obtain ⟨n, hn⟩ := hr
    exact h ⟨n, r, hn⟩
  · intro h hr
    obtain ⟨n, r, hn⟩ := hr
    exact h r ⟨n, hn⟩

theorem exists_fate (ht : ProperStatement t) (s : Store) : ∃ o, Meets t s o := by
  by_cases h : ∃ r, Gives t s r
  · obtain ⟨r, hr⟩ := h
    cases r with
    | ok s' => exact ⟨_, (finishes_iff ht).2 hr⟩
    | error f => exact ⟨_, (fails_iff ht).2 hr⟩
  · exact ⟨.endless, (endless_iff_gives ht).2 fun r hr => h ⟨r, hr⟩⟩

theorem refines_of_meets (ha : ProperStatement a) (ha' : ProperStatement a')
    (h : ∀ s o, Meets a s o → Meets a' s o) : Refines a a' := by
  intro s r hr
  cases r with
  | ok s' => exact (finishes_iff ha').1 (h s _ ((finishes_iff ha).2 hr))
  | error f => exact (fails_iff ha').1 (h s _ ((fails_iff ha).2 hr))

/-- Proper statements have the same fates exactly when each refines the other. -/
theorem alike_iff_refines (ha : ProperStatement a) (ha' : ProperStatement a') :
    Alike a a' ↔ Refines a a' ∧ Refines a' a := by
  constructor
  · intro h
    exact ⟨refines_of_meets ha ha' fun s o => (h s o).1,
      refines_of_meets ha' ha fun s o => (h s o).2⟩
  · -- Being endless is to give no result, so refinement both ways settles that fate too.
    rintro ⟨h, h'⟩ s o
    have hgives : ∀ r, Gives a s r ↔ Gives a' s r := fun r => ⟨h s r, h' s r⟩
    cases o with
    | finishes s' => rw [finishes_iff ha, finishes_iff ha', hgives]
    | fails f => rw [fails_iff ha, fails_iff ha', hgives]
    | endless => simp only [endless_iff_gives ha, endless_iff_gives ha', hgives]

/-! ## Contexts -/

/-- **Equivalence is a congruence.** If two proper statements have the same fate in every
store, then so have the two programs that a proper context makes of them: they finish in
the same store, fail with the same fault or run for ever together. Each of these programs
has one fate and no other. -/
theorem alike_fill {K : Context} (hK : K.Proper) (ha : ProperStatement a)
    (ha' : ProperStatement a') (h : Alike a a') :
    Alike (K.fill a) (K.fill a') ∧
      ∀ s, ∃ o, Meets (K.fill a) s o ∧ ∀ o', Meets (K.fill a) s o' → o' = o := by
  constructor
  · obtain ⟨hr, hr'⟩ := (alike_iff_refines ha ha').1 h
    exact (alike_iff_refines (hK.fill ha) (hK.fill ha')).2 ⟨hr.fill K, hr'.fill K⟩
  · intro s
    obtain ⟨o, ho⟩ := exists_fate (hK.fill ha) s
    exact ⟨o, ho, fun o' ho' => ho'.unique ho⟩

/-- The body of the loop that triples a variable, with an empty statement behind it: inside
the loop and before another statement it still leads to the same store. -/
theorem alike_fill_tripling :
    let a := assign "x" (.binary .multiply (var "x") (num 3))
    let K : Context :=
      .first (.body (.binary .less (var "x") (num 5)) .hole) (assign "y" (var "x"))
    let s : Store := Table.ofList [("x", .num 1)]
    let s' : Store := Table.ofList [("x", .num 9), ("y", .num 9)]
    K.Proper ∧ ProperStatement a ∧ ProperStatement (seq a skip) ∧ Alike a (seq a skip) ∧
      Meets (K.fill (seq a skip)) s (.finishes s') := by
  intro a K s s'
  have ha : ProperStatement a := .assign (.binary nofun (.var "x") (.num 3))
  have ha' : ProperStatement (seq a skip) := .seq ha .skip
  have hK : K.Proper :=
    .first (.body (.binary nofun (.var "x") (.num 5)) .hole) (.assign (.var "x"))
  have halike : Alike a (seq a skip) :=
    (alike_iff_refines ha ha').2 ⟨.seq_skip a, .of_seq_skip a⟩
  have hbody : ∀ k : Int, Runs a (Table.ofList [("x", .num k)]) 3
      (.ok (Table.ofList [("x", .num (k * 3))])) :=
    fun k => .assign (v := .num (k * 3)) rfl
  have hloop : Runs (.loop (.binary .less (var "x") (num 5)) a) s 20
      (.ok (Table.ofList [("x", .num 9)])) :=
    .loopAgain rfl (hbody 1) (.loopAgain rfl (hbody 3) (.loopDone rfl))
  have hall : Runs (K.fill a) s 23 (.ok s') := .seq hloop (.assign (v := .num 9) rfl)
  obtain ⟨hfill, -⟩ := alike_fill hK ha ha' halike
  exact ⟨hK, ha, ha', halike, (hfill s _).1 ((finishes_iff (hK.fill ha)).2 ⟨_, hall⟩)⟩

end Stepwise.Session
