import Stepwise.Catalog
import Stepwise.Proofs.Session.Exits

/-!
# Runs of the catalog

Every program of the catalog comes to its end within twenty steps, or to a step that fails
with a fault that well-made programs run into (`Sample.exits`). Under a limit there is one
more outcome, that the program has a step left there. `State.Outcome` says this of a program
without the detour of a session, and there is exactly one outcome (`Sample.run_outcome`,
`Sample.outcome_unique`).
-/

namespace Stepwise

open Session

/-- What comes of a program under a limit, or without one. -/
inductive State.Outcome (st : State) (limit : Option Nat) : Except Stop History → Prop
  /-- It comes to its end, and the history shows every state up to that. -/
  | finishes {k st' h} : after k st = .ok st' → st'.program.canStep = .ok false →
      (∀ n, limit = some n → k ≤ n) → (begin st.program st.store none).Records (k + 1) h.entries →
      Outcome st limit (.ok h)
  /-- A step before the limit fails, with a fault that well-made programs run into. -/
  | fails {k st' f} : after k st = .ok st' → st'.program.canStep = .ok true →
      st'.step = .error f → f.title?.isSome = true → (∀ n, limit = some n → k < n) →
      Outcome st limit (.error (.fault f))
  /-- It has a step left at the limit, and the history shows every state up to there. -/
  | overruns {n st' h} : limit = some n → after n st = .ok st' →
      st'.program.canStep = .ok true → (begin st.program st.store none).Records (n + 1) h.entries →
      Outcome st limit (.error (.limit n h))

namespace Sample

variable {p : Sample} {limit : Option Nat} {r : Except Stop History}

/-- Whether a program, within twenty steps, comes to its end or to a fault of well-made
programs. -/
def halts (p : Sample) : Bool :=
  match (begin p.start.program p.start.store none).run 21 Sink.silent () with
  | some report =>
    report.session.taken ≤ 20 &&
      match report.result with
      | .ok _ => true
      | .error (.fault f) => f.title?.isSome
      | .error _ => false
  | none => false

theorem halts_of_mem : ∀ p ∈ Catalog.all, p.halts = true := by decide +kernel

/-- Every program of the catalog has an exit within twenty steps, and a fault there is one of
well-made programs. -/
theorem exits (hp : p ∈ Catalog.all) :
    ∃ j st e r, (begin p.start.program p.start.store none).Exits j st e r ∧ j ≤ 20 ∧
      ∀ f, r = .error (.fault f) → f.title?.isSome = true := by
  have hhalts := halts_of_mem p hp
  rw [halts] at hhalts
  rcases run_silent 21 (begin p.start.program p.start.store none) with
    ⟨report, j, st, e, hrun, hx, hsession⟩ | ⟨hnone, -⟩
  · rw [hrun] at hhalts
    simp only [Bool.and_eq_true, decide_eq_true_eq] at hhalts
    obtain ⟨htaken, hresult⟩ := hhalts
    refine ⟨j, st, e, report.result, hx, ?_, ?_⟩
    · rw [hsession] at htaken
      simpa [moved, begin] using htaken
    · intro f hf
      rw [hf] at hresult
      exact hresult
  · rw [hnone] at hhalts
    cases hhalts

/-- The session in which a program of the catalog is run. -/
def session (p : Sample) (limit : Option Nat) : Session :=
  begin p.start.program p.start.store (limit.map Int.ofNat)

theorem limit_session {n : Nat} (h : limit = some n) :
    (p.session limit).limit = some (n : Int) :=
  congrArg (Option.map Int.ofNat) h

theorem session_limit {n : Int} (h : (p.session limit).limit = some n) :
    ∃ k : Nat, limit = some k ∧ n = k := by
  obtain ⟨k, hk, rfl⟩ := Option.map_eq_some_iff.1 h
  exact ⟨k, hk, rfl⟩

theorem outcome_of_exits (hp : p ∈ Catalog.all) {j : Nat} {st : State} {e : Ending}
    (hx : (p.session limit).Exits j st e r) : p.start.Outcome limit r := by
  obtain ⟨j', st', e', r', hx', -, htitle⟩ := exits hp
  cases hx with
  | finished ha hc hj hes =>
    refine .finishes ha hc ?_ hes
    intro n hn
    rcases hj n (limit_session hn) with hle | rfl
    · exact Int.ofNat_le.1 hle
    · exact Nat.zero_le n
  | stuck ha hc hf hj =>
    -- Without the limit the program fails at the same step.
    obtain ⟨-, -, -, rfl⟩ := hx'.unique (.stuck ha hc hf nofun)
    exact .fails ha hc hf (htitle _ rfl) fun n hn => Int.ofNat_lt.1 (hj n (limit_session hn))
  | strayed ha hv hj =>
    obtain ⟨-, -, -, rfl⟩ := hx'.unique (.strayed ha hv nofun)
    cases htitle _ rfl
  | spent hn ha hc hes =>
    obtain ⟨k, hk, rfl⟩ := session_limit hn
    exact .overruns hk ha hc hes

theorem exits_of_outcome (ho : p.start.Outcome limit r) :
    ∃ j st e, (p.session limit).Exits j st e r := by
  cases ho with
  | finishes ha hc hle hes =>
    refine ⟨_, _, _, .finished ha hc ?_ hes⟩
    intro n hn
    obtain ⟨k, hk, rfl⟩ := session_limit hn
    exact .inl (Int.ofNat_le.2 (hle k hk))
  | fails ha hc hf _ hlt =>
    refine ⟨_, _, _, .stuck ha hc hf ?_⟩
    intro n hn
    obtain ⟨k, hk, rfl⟩ := session_limit hn
    exact Int.ofNat_lt.2 (hlt k hk)
  | overruns hl ha hc hes => exact ⟨_, _, _, .spent (limit_session hl) ha hc hes⟩

/-- Nothing else comes of a program. -/
theorem outcome_unique (ho : p.start.Outcome limit r) {r' : Except Stop History}
    (ho' : p.start.Outcome limit r') : r = r' := by
  obtain ⟨j, st, e, hx⟩ := exits_of_outcome ho
  obtain ⟨j', st', e', hx'⟩ := exits_of_outcome ho'
  exact (hx.unique hx').2.2.2

/-- **A program of the catalog is run to its outcome**, and the fuel for that is soon
enough. -/
theorem run_outcome (hp : p ∈ Catalog.all) (limit : Option Nat) {fuel : Nat} (hf : 20 < fuel) :
    ∃ report, (p.session limit).run fuel Sink.silent () = some report ∧
      p.start.Outcome limit report.result := by
  rcases run_silent fuel (p.session limit) with
    ⟨report, j, st, e, hrun, hx, -⟩ | ⟨-, -, st, ha, -⟩
  · exact ⟨report, hrun, outcome_of_exits hp hx⟩
  · -- There is no state after so many steps.
    obtain ⟨j, st', e, r, hx, hj, -⟩ := exits hp
    obtain ⟨st₁, ha₁, -⟩ := State.after_of_le (Nat.lt_of_le_of_lt hj hf) ha
    exact absurd ha₁ (hx.not_after_succ rfl)

end Sample

end Stepwise
