import Stepwise.Proofs.Session.Journey

/-!
# The exits of a run

A run that is not watched has four ways out, and `Exits` has a constructor for each: the
program is finished, the next step fails, the program is no term any more, or the limit
is reached. The state that follows after `j` steps and the limit decide between them. At
the boundary they compete: a program that is finished after as many steps as the limit
allows comes to its end, and a step that would fail there is not taken.

Main statement: `run_exits`. A run ends by an exit and by every exit that is open; there
is never more than one; and none is open exactly when there is no limit and every state
has a step left, so that the run goes on for ever.
-/

namespace Stepwise.Session

variable {m m' : Session} {j j' : Nat} {st st' : State} {e e' : Ending}
  {r r' : Except Stop History} {fuel : Nat}

/-- A run that nobody watches ends with the result `r` and leaves the session `m'`. -/
def Ends (m : Session) (r : Except Stop History) (m' : Session) : Prop :=
  ∃ fuel report, m.run fuel Sink.silent () = some report ∧
    report.result = r ∧ report.session = m'

/-- A run that nobody watches never ends. -/
def Endless (m : Session) : Prop := ∀ fuel, m.run fuel Sink.silent () = none

/-- The limit lets a run come to the state after `j` steps. The first state is always
looked at, even under a negative limit. -/
def Admits (m : Session) (j : Nat) : Prop := ∀ n, m.limit = some n → (j : Int) ≤ n ∨ j = 0

/-- The limit lets a run leave the state after `j` steps. -/
def Allows (m : Session) (j : Nat) : Prop := ∀ n, m.limit = some n → (j : Int) < n

/-- The exits of a run: after `j` steps, in the state `st`, by an ending and with a
result. -/
inductive Exits (m : Session) : Nat → State → Ending → Except Stop History → Prop
  | finished {j st es} : State.after j m.state = .ok st → st.program.canStep = .ok false →
      m.Admits j → m.Records (j + 1) es → Exits m j st .finished (.ok ⟨es⟩)
  | stuck {j st f} : State.after j m.state = .ok st → st.program.canStep = .ok true →
      st.step = .error f → m.Allows j → Exits m j st (.stuck f) (.error (.fault f))
  | strayed {j st v} : State.after j m.state = .ok st → st.program = .stray v → m.Admits j →
      Exits m j st (.strayed (.notTerm v)) (.error (.fault (.notTerm v)))
  | spent {n st es} : m.limit = some n → State.after n.toNat m.state = .ok st →
      st.program.canStep = .ok true → m.Records (n.toNat + 1) es →
      Exits m n.toNat st .spent (.error (.limit n ⟨es⟩))

/-! ## There is one exit at most -/

theorem Exits.after (h : m.Exits j st e r) : State.after j m.state = .ok st := by
  cases h <;> assumption

theorem Exits.admits (h : m.Exits j st e r) : m.Admits j := by
  cases h with
  | finished _ _ hj _ => exact hj
  | stuck _ _ _ hj => exact fun n hn => .inl (Int.le_of_lt (hj n hn))
  | strayed _ _ hj => exact hj
  | spent hn _ _ _ =>
    intro n' hn'
    obtain rfl : _ = n' := Option.some.inj (hn.symm.trans hn')
    omega

/-- The history of a finished run has recorded every state on the way. -/
theorem Exits.records {es : List Entry} (h : m.Exits j st .finished (.ok ⟨es⟩)) :
    m.Records (j + 1) es := by
  cases h with
  | finished _ _ _ hes => exact hes

/-- A run does not leave the state of an exit: there is no step, or the limit forbids
it. -/
theorem Exits.last (h : m.Exits j st e r) :
    (∀ st', st.step ≠ .ok st') ∨ ∃ n, m.limit = some n ∧ n ≤ j := by
  cases h with
  | finished _ hc _ _ =>
    left
    intro st' hs
    rw [State.step_of_finished hc] at hs
    cases hs
  | stuck _ _ hf _ =>
    left
    intro st' hs
    rw [hf] at hs
    cases hs
  | strayed _ hv _ =>
    left
    intro st' hs
    have hc := State.canStep_of_step hs
    rw [hv] at hc
    cases hc
  | @spent n _ _ hn _ _ _ => exact .inr ⟨n, hn, Int.self_le_toNat n⟩

/-- Without a limit there is no state after that of an exit. -/
theorem Exits.not_after_succ (h : m.Exits j st e r) (hl : m.limit = none) :
    State.after (j + 1) m.state ≠ .ok st' := by
  intro ha
  rcases h.last with hnone | ⟨n, hn, -⟩
  · exact hnone st' ((State.after_succ_last h.after).symm.trans ha)
  · rw [hl] at hn
    cases hn

theorem Exits.le (h : m.Exits j st e r) (h' : m.Exits j' st' e' r') : j' ≤ j := by
  apply Nat.le_of_not_lt
  intro hlt
  obtain ⟨st₁, hs⟩ := State.step_of_after_lt hlt h.after h'.after
  rcases h.last with hnone | ⟨n, hn, hnj⟩
  · exact hnone st₁ hs
  · have hj' := h'.admits n hn
    omega

/-- **There is never more than one exit.** -/
theorem Exits.unique (h : m.Exits j st e r) (h' : m.Exits j' st' e' r') :
    j = j' ∧ st = st' ∧ e = e' ∧ r = r' := by
  obtain rfl : j = j' := Nat.le_antisymm (h'.le h) (h.le h')
  obtain rfl : st = st' := Except.ok.inj (h.after.symm.trans h'.after)
  refine ⟨rfl, rfl, ?_⟩
  -- The program tells the exits apart, and the limit where the program can still step.
  cases h with
  | finished _ hc _ hes =>
    cases h' with
    | finished _ _ _ hes' => rw [hes.unique hes']; exact ⟨rfl, rfl⟩
    | stuck _ hc' _ _ => rw [hc] at hc'; cases hc'
    | strayed _ hv _ => rw [hv] at hc; cases hc
    | spent _ _ hc' _ => rw [hc] at hc'; cases hc'
  | stuck _ hc hf hj =>
    cases h' with
    | finished _ hc' _ _ => rw [hc] at hc'; cases hc'
    | stuck _ _ hf' _ => cases hf.symm.trans hf'; exact ⟨rfl, rfl⟩
    | strayed _ hv _ => rw [hv] at hc; cases hc
    | spent hn _ _ _ => have hlt := hj _ hn; omega
  | strayed _ hv _ =>
    cases h' with
    | finished _ hc _ _ => rw [hv] at hc; cases hc
    | stuck _ hc _ _ => rw [hv] at hc; cases hc
    | strayed _ hv' _ => cases hv.symm.trans hv'; exact ⟨rfl, rfl⟩
    | spent _ _ hc _ => rw [hv] at hc; cases hc
  | spent hn _ hc hes =>
    generalize hk : Int.toNat _ = k at h'
    cases h' with
    | finished _ hc' _ _ => rw [hc] at hc'; cases hc'
    | stuck _ _ _ hj => have hlt := hj _ hn; omega
    | strayed _ hv _ => rw [hv] at hc; cases hc
    | spent hn' _ _ hes' =>
      cases hn.symm.trans hn'
      rw [hes.unique hes']
      exact ⟨rfl, rfl⟩

/-! ## A run ends by an exit -/

theorem admits_of_le (h : j ≤ budget fuel m.limit) : m.Admits j := by
  intro n hn
  rw [hn, budget] at h
  omega

theorem allows_of_lt (h : j < budget fuel m.limit) : m.Allows j := by
  intro n hn
  rw [hn, budget] at h
  omega

/-- The sink that takes everything refuses nothing. -/
theorem travel_silent {σ : Type} (budget : Nat) (m : Session) (tray : σ) (f : Refusal) :
    (travel Sink.silent budget m tray).ending ≠ .refused f := by
  induction budget generalizing m with
  | zero =>
    rw [travel]
    cases m.canStep with
    | error _ => simp
    | ok more => cases more <;> simp [Sink.silent]
  | succ budget ih =>
    rw [travel]
    cases m.canStep with
    | error _ => simp
    | ok more =>
      cases more with
      | false => simp [Sink.silent]
      | true =>
        cases hs : m.step with
        | error _ => simp [Sink.silent]
        | ok m' =>
          simp only [Sink.silent, if_true]
          exact ih m'

/-- A run that gives a report has gone out by an exit. One that gives none is without a
limit and has a step left when its fuel is spent. -/
theorem run_silent (fuel : Nat) (m : Session) :
    (∃ report j st e, m.run fuel Sink.silent () = some report ∧
      m.Exits j st e report.result ∧ report.session = m.moved j st) ∨
    (m.run fuel Sink.silent () = none ∧ m.limit = none ∧
      ∃ st, State.after fuel m.state = .ok st ∧ st.program.canStep = .ok true) := by
  obtain ⟨k, st, hk, ha, hm, hr⟩ := travel_reaches Sink.silent (budget fuel m.limit) m ()
  have hnever := travel_silent (budget fuel m.limit) m ()
  unfold run conclude
  generalize travel Sink.silent (budget fuel m.limit) m () = journey at hm hr hnever
  obtain ⟨es, session, tray, records, ending⟩ := journey
  cases ending with
  | finished =>
    exact .inl ⟨_, k, st, _, rfl, .finished ha hr.1 (admits_of_le hk) hr.2, hm⟩
  | stuck f =>
    exact .inl ⟨_, k, st, _, rfl, .stuck ha hr.2.1 hr.2.2.1 (allows_of_lt hr.1), hm⟩
  | strayed f =>
    obtain ⟨v, hv, rfl⟩ := Term.canStep_eq_error_iff.1 hr.1
    exact .inl ⟨_, k, st, _, rfl, .strayed ha hv (admits_of_le hk), hm⟩
  | refused f => exact absurd rfl (hnever f)
  | spent =>
    obtain ⟨rfl, hc, hes⟩ := hr
    cases hl : m.limit with
    | none =>
      rw [hl, budget] at ha
      exact .inr ⟨rfl, rfl, st, ha, hc⟩
    | some n =>
      rw [hl, budget] at ha hm hes
      exact .inl ⟨_, _, st, _, rfl, .spent hl ha hc hes, hm⟩

theorem ends_iff_exits :
    m.Ends r m' ↔ ∃ j st e, m.Exits j st e r ∧ m' = m.moved j st := by
  constructor
  · intro h
    obtain ⟨fuel, report, hrun, rfl, rfl⟩ := h
    rcases run_silent fuel m with ⟨report', j, st, e, hrun', hx, hm⟩ | ⟨hnone, -⟩
    · rw [hrun] at hrun'
      cases hrun'
      exact ⟨j, st, e, hx, hm⟩
    · rw [hrun] at hnone
      cases hnone
  · intro h
    obtain ⟨j, st, e, hx, rfl⟩ := h
    -- One more unit of fuel than steps: a run without a limit cannot have spent it all.
    rcases run_silent (j + 1) m with ⟨report, j', st', e', hrun, hx', hm⟩ | ⟨-, hl, st', ha, -⟩
    · obtain ⟨rfl, rfl, -, hr⟩ := hx.unique hx'
      exact ⟨j + 1, report, hrun, hr.symm, hm⟩
    · exact absurd ha (hx.not_after_succ hl)

/-! ## A run without an exit -/

/-- Every state before an exit has a step left, so that the exit is the first there is. -/
theorem Exits.first (h : m.Exits j st e r) {i : Nat} (hij : i < j) :
    ∃ st', State.after i m.state = .ok st' ∧ st'.program.canStep = .ok true := by
  obtain ⟨st', ha, -⟩ := State.after_of_le (Nat.le_of_lt hij) h.after
  obtain ⟨st₁, hs⟩ := State.step_of_after_lt hij ha h.after
  exact ⟨st', ha, State.canStep_of_step hs⟩

theorem endless_iff :
    m.Endless ↔ m.limit = none ∧
      ∀ j, ∃ st, State.after j m.state = .ok st ∧ st.program.canStep = .ok true := by
  constructor
  · intro h
    have hrun : ∀ fuel, m.limit = none ∧
        ∃ st, State.after fuel m.state = .ok st ∧ st.program.canStep = .ok true := by
      intro fuel
      rcases run_silent fuel m with ⟨report, j, st, e, hrun, -⟩ | ⟨-, hl, hst⟩
      · rw [h fuel] at hrun
        cases hrun
      · exact ⟨hl, hst⟩
    exact ⟨(hrun 0).1, fun j => (hrun j).2⟩
  · intro h fuel
    obtain ⟨hl, hsteps⟩ := h
    rcases run_silent fuel m with ⟨report, j, st, e, -, hx, -⟩ | ⟨hnone, -⟩
    · obtain ⟨st', ha, -⟩ := hsteps (j + 1)
      exact absurd ha (hx.not_after_succ hl)
    · exact hnone

theorem endless_iff_not_exits : m.Endless ↔ ¬ ∃ j st e r, m.Exits j st e r := by
  constructor
  · intro h hexit
    obtain ⟨j, st, e, r, hx⟩ := hexit
    obtain ⟨fuel, report, hrun, -⟩ := ends_iff_exits.2 ⟨j, st, e, hx, rfl⟩
    rw [h fuel] at hrun
    cases hrun
  · intro h fuel
    rcases run_silent fuel m with ⟨report, j, st, e, -, hx, -⟩ | ⟨hnone, -⟩
    · exact absurd ⟨j, st, e, _, hx⟩ h
    · exact hnone

/-- **The exact outcome of a run.** A run ends by an exit, with the exit's result and in
the exit's state, and every exit that is open is one by which it ends; there is never
more than one, and it is the first on the way; and a run is endless exactly when no exit
is open, which is when there is no limit and every state has a step left. -/
theorem run_exits (m : Session) :
    (∀ r m', m.Ends r m' ↔ ∃ j st e, m.Exits j st e r ∧ m' = m.moved j st) ∧
    (∀ j st e r j' st' e' r', m.Exits j st e r → m.Exits j' st' e' r' →
      j = j' ∧ st = st' ∧ e = e' ∧ r = r') ∧
    (∀ j st e r, m.Exits j st e r → ∀ i < j, ∃ st',
      State.after i m.state = .ok st' ∧ st'.program.canStep = .ok true) ∧
    (m.Endless ↔ ¬ ∃ j st e r, m.Exits j st e r) ∧
    (m.Endless ↔ m.limit = none ∧
      ∀ j, ∃ st, State.after j m.state = .ok st ∧ st.program.canStep = .ok true) := by
  refine ⟨fun r m' => ends_iff_exits, ?_, ?_, endless_iff_not_exits, endless_iff⟩
  · intro j st e r j' st' e' r' h h'
    exact h.unique h'
  · intro j st e r h i hij
    exact h.first hij

-- An assignment of a value takes one step; a limit of one lets it come to its end.
example : ((begin (.assign "x" (.num 1)) ∅ (some 1)).run 0 Sink.silent ()).map
    (·.result.isOk) = some true := by decide +kernel

example : ((begin (.assign "x" (.num 1)) ∅ (some 0)).run 0 Sink.silent ()).map
    (·.result.isOk) = some false := by decide +kernel

end Stepwise.Session
