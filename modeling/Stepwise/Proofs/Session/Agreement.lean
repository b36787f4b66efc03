import Stepwise.Proofs.Reduction.BigStep
import Stepwise.Proofs.Session.Exits
import Stepwise.Store.Binding
import Stepwise.Catalog

/-!
# Runs agree with the judgment

What a session does with a proper statement, step by step and without a limit, is what
`Runs` says of the statement as a whole: the same final store or the same fault, and the
same number of steps.

Main statement: `run_agrees`.
-/

namespace Stepwise.Session

open Term

variable {t : Term} {s : Store} {st : State} {n : Nat}

/-- A proper statement and the bindings of its store are accepted at the start. -/
theorem start_of_proper (ht : ProperStatement t) {draft : Draft} (hd : draft.check = .ok s) :
    Session.start t draft none = .ok (begin t s none) := by
  have hc : ∃ more, t.canStep = .ok more := by
    by_cases hs : t = .skip
    · exact ⟨false, by rw [hs]; rfl⟩
    · exact ⟨true, ht.canStep hs⟩
  obtain ⟨more, hc⟩ := hc
  simp only [start, negative?, hc, hd]

/-- The states on the way of a proper statement are proper. -/
theorem proper_after (ht : ProperStatement t) (h : State.after n ⟨t, s⟩ = .ok st) :
    ProperStatement st.program :=
  State.after_induction (P := fun st => ProperStatement st.program)
    (fun hst hs => hst.step hs) ht h

/-! ## The judgment and the exits -/

theorem runs_ok_iff (ht : ProperStatement t) {s' : Store} :
    Runs t s n (.ok s') ↔ ∃ es, (begin t s none).Exits n ⟨.skip, s'⟩ .finished (.ok ⟨es⟩) := by
  rw [runs_iff_after ht]
  constructor
  · intro h
    obtain ⟨st, ha, rfl⟩ := h
    obtain ⟨es, hes⟩ := Records.of_after (m := begin t s none) ha
    exact ⟨es, .finished ha rfl nofun hes⟩
  · intro h
    obtain ⟨es, hx⟩ := h
    exact ⟨_, hx.after, rfl⟩

theorem runs_error_iff (ht : ProperStatement t) {f : Fault} :
    Runs t s n (.error f) ↔
      ∃ st, (begin t s none).Exits n st (.stuck f) (.error (.fault f)) := by
  rw [runs_iff_after ht]
  constructor
  · intro h
    obtain ⟨st, ha, hc, hf⟩ := h
    exact ⟨st, .stuck ha hc hf nofun⟩
  · intro h
    obtain ⟨st, hx⟩ := h
    cases hx with
    | stuck ha hc hf _ => exact ⟨st, ha, hc, hf⟩

/-- A proper statement comes to its end or a step fails; it never turns into something
that is no term. -/
theorem proper_exits (ht : ProperStatement t) {e : Ending} {r : Except Stop History}
    (h : (begin t s none).Exits n st e r) :
    (∃ s' es, st = ⟨.skip, s'⟩ ∧ e = .finished ∧ r = .ok ⟨es⟩) ∨
    (∃ f, e = .stuck f ∧ r = .error (.fault f)) := by
  have hp : ProperStatement st.program := proper_after ht h.after
  cases h with
  | @finished _ _ es _ hc _ _ =>
    have hskip : st.program = .skip := by
      by_cases hs : st.program = .skip
      · exact hs
      · rw [hp.canStep hs] at hc
        cases hc
    exact .inl ⟨st.store, es, by rw [← hskip], rfl, rfl⟩
  | @stuck _ _ f _ _ _ _ => exact .inr ⟨f, rfl, rfl⟩
  | strayed _ hv _ => rw [hv] at hp; cases hp
  | spent hn _ _ _ => cases hn

/-! ## The judgment and the run -/

theorem runs_ok_iff_ends (ht : ProperStatement t) {s' : Store} :
    Runs t s n (.ok s') ↔ ∃ h : History,
      (begin t s none).Ends (.ok h) ((begin t s none).moved n ⟨.skip, s'⟩) ∧
        h.stepCount = n ∧ h.final? = some ⟨n, ⟨.skip, s'⟩⟩ := by
  rw [runs_ok_iff ht]
  constructor
  · intro h
    obtain ⟨es, hx⟩ := h
    refine ⟨⟨es⟩, ends_iff_exits.2 ⟨n, _, _, hx, rfl⟩, ?_⟩
    have hes : (begin t s none).Records (n + 1) es := hx.records
    constructor
    · rw [History.stepCount, History.size, hes.1, Nat.add_sub_cancel]
    · rw [History.final?, hes.getLast? hx.after, begin, Nat.zero_add]
  · intro h
    obtain ⟨h, hends, -⟩ := h
    obtain ⟨j, st, e, hx, hm⟩ := ends_iff_exits.1 hends
    obtain ⟨rfl, rfl⟩ := moved_inj.1 hm
    rcases proper_exits ht hx with ⟨s₁, es, -, rfl, hr⟩ | ⟨f, -, hr⟩
    · cases hr
      exact ⟨es, hx⟩
    · cases hr

theorem runs_error_iff_ends (ht : ProperStatement t) {f : Fault} :
    Runs t s n (.error f) ↔
      ∃ st, (begin t s none).Ends (.error (.fault f)) ((begin t s none).moved n st) := by
  rw [runs_error_iff ht]
  constructor
  · intro h
    obtain ⟨st, hx⟩ := h
    exact ⟨st, ends_iff_exits.2 ⟨n, st, _, hx, rfl⟩⟩
  · intro h
    obtain ⟨st, hends⟩ := h
    obtain ⟨j, st', e, hx, hm⟩ := ends_iff_exits.1 hends
    obtain ⟨rfl, rfl⟩ := moved_inj.1 hm
    rcases proper_exits ht hx with ⟨s₁, es, -, -, hr⟩ | ⟨f', rfl, hr⟩
    · cases hr
    · cases hr
      exact ⟨st, hx⟩

/-- Every exit of a proper statement is a result of the judgment. -/
theorem exits_iff_runs (ht : ProperStatement t) :
    (∃ n st e r, (begin t s none).Exits n st e r) ↔ ∃ n r, Runs t s n r := by
  constructor
  · intro h
    obtain ⟨n, st, e, r, hx⟩ := h
    rcases proper_exits ht hx with ⟨s', es, rfl, rfl, rfl⟩ | ⟨f, rfl, rfl⟩
    · exact ⟨n, .ok s', (runs_ok_iff ht).2 ⟨es, hx⟩⟩
    · exact ⟨n, .error f, (runs_error_iff ht).2 ⟨st, hx⟩⟩
  · intro h
    obtain ⟨n, r, h⟩ := h
    cases r with
    | ok s' =>
      obtain ⟨es, hx⟩ := (runs_ok_iff ht).1 h
      exact ⟨n, _, _, _, hx⟩
    | error f =>
      obtain ⟨st, hx⟩ := (runs_error_iff ht).1 h
      exact ⟨n, _, _, _, hx⟩

/-- **A run agrees with the judgment.** A session that is started with a proper statement
and has no limit comes to its end after `n` steps in a store, with a history of `n`
steps, exactly when the judgment says so; it fails with a fault after `n` steps exactly
when the judgment says so; it ends in no other way; and it is endless exactly when the
judgment has no result. -/
theorem run_agrees (ht : ProperStatement t) (s : Store) :
    (∀ draft : Draft, draft.check = .ok s →
      Session.start t draft none = .ok (begin t s none)) ∧
    (∀ n s', Runs t s n (.ok s') ↔ ∃ h : History,
      (begin t s none).Ends (.ok h) ((begin t s none).moved n ⟨.skip, s'⟩) ∧
        h.stepCount = n ∧ h.final? = some ⟨n, ⟨.skip, s'⟩⟩) ∧
    (∀ n f, Runs t s n (.error f) ↔
      ∃ st, (begin t s none).Ends (.error (.fault f)) ((begin t s none).moved n st)) ∧
    (∀ r m', (begin t s none).Ends r m' → ∃ n, (∃ h s', r = .ok h ∧ Runs t s n (.ok s')) ∨
      ∃ f, r = .error (.fault f) ∧ Runs t s n (.error f)) ∧
    ((begin t s none).Endless ↔ ∀ n r, ¬ Runs t s n r) := by
  refine ⟨fun draft hd => start_of_proper ht hd, fun n s' => runs_ok_iff_ends ht,
    fun n f => runs_error_iff_ends ht, ?_, ?_⟩
  · intro r m' hends
    obtain ⟨n, st, e, hx, -⟩ := ends_iff_exits.1 hends
    refine ⟨n, ?_⟩
    rcases proper_exits ht hx with ⟨s', es, rfl, rfl, rfl⟩ | ⟨f, rfl, rfl⟩
    · exact .inl ⟨⟨es⟩, s', rfl, (runs_ok_iff ht).2 ⟨es, hx⟩⟩
    · exact .inr ⟨f, rfl, (runs_error_iff ht).2 ⟨st, hx⟩⟩
  · rw [endless_iff_not_exits, exits_iff_runs ht]
    simp only [not_exists]

/-- The loop that triples a variable goes round twice in twenty steps. -/
theorem run_agrees_tripling :
    ProperStatement Catalog.tripling ∧ ∃ h : History,
      (begin Catalog.tripling (Table.ofList [("x", .num 1)]) none).Ends (.ok h)
        ((begin Catalog.tripling (Table.ofList [("x", .num 1)]) none).moved 20
          ⟨.skip, Table.ofList [("x", .num 9)]⟩) ∧
      h.stepCount = 20 ∧ h.final? = some ⟨20, ⟨.skip, Table.ofList [("x", .num 9)]⟩⟩ := by
  have ht : ProperStatement Catalog.tripling :=
    .loop (.binary nofun (.var "x") (.num 5)) (.assign (.binary nofun (.var "x") (.num 3)))
  have hbody : ∀ k : Int, Runs (.assign "x" (.binary .multiply (.var "x") (.num 3)))
      (Table.ofList [("x", .num k)]) 3 (.ok (Table.ofList [("x", .num (k * 3))])) :=
    fun k => .assign (v := .num (k * 3)) rfl
  have hlast : Runs Catalog.tripling (Table.ofList [("x", .num 9)]) 4 (.ok _) := .loopDone rfl
  have hsecond : Runs Catalog.tripling (Table.ofList [("x", .num 3)]) 12 (.ok _) :=
    .loopAgain rfl (hbody 3) hlast
  have hfirst : Runs Catalog.tripling (Table.ofList [("x", .num 1)]) 20 (.ok _) :=
    .loopAgain rfl (hbody 1) hsecond
  obtain ⟨-, hok, -⟩ := run_agrees ht (Table.ofList [("x", .num 1)])
  exact ⟨ht, (hok 20 _).1 hfirst⟩

end Stepwise.Session
