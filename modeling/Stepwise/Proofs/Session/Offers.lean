import Stepwise.Proofs.Session.Exits

/-!
# What a sink is offered

A run offers every state that it records to its sink, once each and in order. The result
of the run says which states these are (`Offers`): those of the history if there is one,
and otherwise those up to the state in which the run has ended.

A sink that refuses nothing does not change the run (`travel_of_taken`): it ends as it
would with nobody watching. A sink that refuses an offer ends the run at once, in the
state that was offered (`travel_of_refused`).

Main statement: `run_offers`.
-/

namespace Stepwise

/-! ## Sinks and sequences of offers -/

namespace Sink

variable {σ : Type} {sink : Sink σ} {pairs : List (String × String)} {tray tray' : σ}
  {o : Option Refusal}

/-- The sink is offered these pairs, one after another, and its tray changes from the first
to the second. It takes all of them, or it refuses the last one. -/
inductive Receives (sink : Sink σ) : List (String × String) → σ → σ → Option Refusal → Prop
  | nil {tray : σ} : Receives sink [] tray tray none
  | taken {pair : String × String} {pairs : List (String × String)} {tray tray' : σ}
      {o : Option Refusal} :
      (sink.offer pair tray).refusal = none →
      Receives sink pairs (sink.offer pair tray).tray tray' o →
      Receives sink (pair :: pairs) tray tray' o
  | refused {pair : String × String} {tray : σ} {r : Refusal} :
      (sink.offer pair tray).refusal = some r →
      Receives sink [pair] tray (sink.offer pair tray).tray (some r)

theorem silent_takes (pair : String × String) (tray : σ) :
    (silent.offer pair tray).refusal = none := rfl

/-- A sink that never refuses takes everything. -/
theorem Receives.eq_none (hsink : ∀ pair tray, (sink.offer pair tray).refusal = none)
    (h : sink.Receives pairs tray tray' o) : o = none := by
  induction h with
  | nil => rfl
  | taken _ _ ih => exact ih
  | refused hr => cases (hsink _ _).symm.trans hr

/-- A printing sink writes every pair on a line of its own. -/
theorem Receives.printed {tray tray' : Tray} (h : print.Receives pairs tray tray' o) :
    tray'.printed = tray.printed ++ Text.lines (pairs.map fun p => p.1 ++ ", " ++ p.2) := by
  induction h with
  | nil => simp [Text.lines]
  | taken _ _ ih =>
    rw [ih]
    simp [Text.lines, print, String.append_assoc]
  | refused hr => cases hr

end Sink

/-- The lines of a text that is not empty are the joined pieces with a line end. -/
theorem Text.lines_eq_joinWith {pieces : List String} (h : pieces ≠ []) :
    Text.lines pieces = Text.joinWith "\n" pieces ++ "\n" := by
  induction pieces with
  | nil => exact absurd rfl h
  | cons piece rest ih =>
    cases rest with
    | nil => simp [Text.lines, Text.joinWith]
    | cons next rest =>
      have hfirst : Text.lines (piece :: next :: rest) =
          piece ++ "\n" ++ Text.lines (next :: rest) := rfl
      have hjoin : Text.joinWith "\n" (piece :: next :: rest) =
          piece ++ "\n" ++ Text.joinWith "\n" (next :: rest) := rfl
      rw [hfirst, ih nofun, hjoin]
      simp only [String.append_assoc]

/-- The refusal that has ended a journey, if it was one that did. -/
def Ending.refusal? : Ending → Option Refusal
  | refused r => some r
  | _ => none

namespace Session

variable {σ : Type} {sink : Sink σ} {m m' : Session} {st : State} {k n fuel : Nat}
  {tray tray' : σ} {es : List Entry} {f : Fault} {r : Refusal} {o : Option Refusal}

/-! ## The loop, exit by exit -/

theorem travel_strayed (hc : m.canStep = .error f) :
    travel sink n m tray = ⟨[], m, tray, [], .strayed f⟩ := by
  unfold travel
  rw [hc]

theorem travel_refused {more : Bool} (hc : m.canStep = .ok more)
    (hr : (sink.offer m.entry.texts tray).refusal = some r) :
    travel sink n m tray =
      ⟨[m.entry], m, (sink.offer m.entry.texts tray).tray,
        (sink.offer m.entry.texts tray).records, .refused r⟩ := by
  unfold travel
  simp only [hc, hr]

theorem travel_finished (hc : m.canStep = .ok false)
    (hr : (sink.offer m.entry.texts tray).refusal = none) :
    travel sink n m tray =
      ⟨[m.entry], m, (sink.offer m.entry.texts tray).tray,
        (sink.offer m.entry.texts tray).records, .finished⟩ := by
  unfold travel
  simp [hc, hr]

theorem travel_spent (hc : m.canStep = .ok true)
    (hr : (sink.offer m.entry.texts tray).refusal = none) :
    travel sink 0 m tray =
      ⟨[m.entry], m, (sink.offer m.entry.texts tray).tray,
        (sink.offer m.entry.texts tray).records, .spent⟩ := by
  unfold travel
  simp [hc, hr]

theorem travel_stuck (hc : m.canStep = .ok true) (hs : m.step = .error f)
    (hr : (sink.offer m.entry.texts tray).refusal = none) :
    travel sink (n + 1) m tray =
      ⟨[m.entry], m, (sink.offer m.entry.texts tray).tray,
        (sink.offer m.entry.texts tray).records, .stuck f⟩ := by
  rw [travel]
  simp [hc, hr, hs]

theorem canStep_of_step (hs : m.step = .ok m') : m.canStep = .ok true := by
  obtain ⟨st, hst, -⟩ := step_eq_ok_iff.1 hs
  exact State.canStep_of_step hst

theorem travel_step (hs : m.step = .ok m')
    (hr : (sink.offer m.entry.texts tray).refusal = none) :
    travel sink (n + 1) m tray =
      (travel sink n m' (sink.offer m.entry.texts tray).tray).after m.entry
        (sink.offer m.entry.texts tray).records := by
  rw [travel]
  simp [canStep_of_step hs, hr, hs]

/-! ## Journeys and their sinks -/

/-- A journey offers each state that it records, and stops at the first refusal. -/
theorem travel_receives (sink : Sink σ) (budget : Nat) (m : Session) (tray : σ) :
    sink.Receives ((travel sink budget m tray).visited.map Entry.texts) tray
      (travel sink budget m tray).tray (travel sink budget m tray).ending.refusal? := by
  fun_induction travel sink budget m tray with
  | case1 => exact .nil
  | case2 _ _ _ _ _ _ _ hr => exact .refused hr
  | case3 _ _ _ hr => exact .taken hr .nil
  | case4 _ _ _ hr => exact .taken hr .nil
  | case5 _ _ _ hr _ _ _ _ ih => exact .taken hr ih
  | case6 _ _ _ _ _ _ hr => exact .taken hr .nil

/-- A journey without a refusal is the one that nobody watches. -/
theorem travel_of_taken (h : (travel sink n m tray).ending.refusal? = none) :
    (travel sink n m tray).visited = (travel Sink.silent n m ()).visited ∧
      (travel sink n m tray).session = (travel Sink.silent n m ()).session ∧
      (travel sink n m tray).ending = (travel Sink.silent n m ()).ending := by
  fun_induction travel sink n m tray with
  | case1 _ _ _ _ hc => simp [travel_strayed hc]
  | case2 => cases h
  | case3 m _ _ _ hc => simp [travel_spent hc (Sink.silent_takes m.entry.texts ())]
  | case4 m _ _ _ _ _ hs hc => simp [travel_stuck hc hs (Sink.silent_takes m.entry.texts ())]
  | case5 m _ _ _ _ _ hs _ ih =>
    rw [travel_step hs (Sink.silent_takes m.entry.texts ())]
    obtain ⟨hv, hm, he⟩ := ih h
    exact ⟨congrArg _ hv, hm, he⟩
  | case6 _ m _ more hc _ _ hmore =>
    obtain rfl : more = false := by simpa using hmore
    simp [travel_finished hc (Sink.silent_takes m.entry.texts ())]

/-- What a session has recorded begins with its own entry. -/
theorem Records.uncons (h : m.Records (n + 1) es) :
    ∃ rest, es = m.entry :: rest ∧
      ∀ st, m.state.step = .ok st → (m.moved 1 st).Records n rest := by
  cases es with
  | nil => cases h.1
  | cons e rest =>
    obtain ⟨hindex, hafter⟩ := h.2 0 e rfl
    obtain ⟨x, st₀⟩ := e
    cases hindex
    cases hafter
    refine ⟨rest, rfl, ?_⟩
    intro st hst
    refine ⟨Nat.succ.inj h.1, ?_⟩
    intro i e hi
    obtain ⟨hindex, hafter⟩ := h.2 (i + 1) e hi
    refine ⟨?_, (State.after_succ_of_step hst).symm.trans hafter⟩
    rw [hindex, moved, Nat.add_right_comm, Nat.add_assoc]

/-- A sink that refuses a state on the way ends the journey there. -/
theorem travel_of_refused {more : Bool} (ha : State.after k m.state = .ok st)
    (hc : st.program.canStep = .ok more) (hes : m.Records (k + 1) es)
    (hr : sink.Receives (es.map Entry.texts) tray tray' (some r)) (hk : k ≤ n) :
    (travel sink n m tray).session = m.moved k st ∧
      (travel sink n m tray).tray = tray' ∧
      (travel sink n m tray).ending = .refused r := by
  induction k generalizing n m tray es with
  | zero =>
    cases ha
    obtain ⟨rest, rfl, -⟩ := hes.uncons
    obtain rfl : rest = [] := List.eq_nil_of_length_eq_zero (Nat.succ.inj hes.1)
    cases hr with
    | taken _ hnil => cases hnil
    | refused hr =>
      rw [travel_refused hc hr]
      exact ⟨rfl, rfl, rfl⟩
  | succ k ih =>
    obtain ⟨n, rfl⟩ : ∃ b, n = b + 1 := Nat.exists_eq_succ_of_ne_zero (by omega)
    obtain ⟨st₁, hst, ha₁⟩ : ∃ st₁, m.state.step = .ok st₁ ∧ State.after k st₁ = .ok st := by
      obtain ⟨st₁, h₁, h₂⟩ := State.after_of_le (Nat.le_add_left 1 k) ha
      exact ⟨st₁, (State.after_one _).symm.trans h₁, h₂⟩
    obtain ⟨rest, rfl, hrest⟩ := hes.uncons
    have hlength : rest.length = k + 1 := (hrest st₁ hst).1
    -- More states follow, so the sink has taken this one.
    obtain ⟨next, rest, rfl⟩ := List.exists_cons_of_length_eq_add_one hlength
    cases hr with
    | taken htaken hr =>
      rw [travel_step (step_eq_ok_iff.2 ⟨st₁, hst, rfl⟩) htaken]
      obtain ⟨hm, ht, he⟩ := ih ha₁ (hrest st₁ hst) hr (Nat.le_of_succ_le_succ hk)
      refine ⟨?_, ht, he⟩
      rw [Nat.add_comm k 1, ← moved_moved m 1 k st₁ st]
      exact hm

/-! ## Runs and their sinks -/

/-- What a run has offered by the time it ends with a result and leaves a session: the
states from the first one on, the last of which the sink may have refused. A state in which
the next step fails is offered, and one whose program is no term is not. -/
inductive Offers (m : Session) :
    Except Stop History → Session → List Entry → Option Refusal → Prop
  | finished {k : Nat} {st : State} {es : List Entry} :
      State.after k m.state = .ok st → st.program.canStep = .ok false →
      m.Records (k + 1) es → Offers m (.ok ⟨es⟩) (m.moved k st) es none
  | spent {n : Int} {st : State} {es : List Entry} :
      m.limit = some n → State.after n.toNat m.state = .ok st →
      st.program.canStep = .ok true → m.Records (n.toNat + 1) es →
      Offers m (.error (.limit n ⟨es⟩)) (m.moved n.toNat st) es none
  | stuck {k : Nat} {st : State} {f : Fault} {es : List Entry} :
      State.after k m.state = .ok st → st.program.canStep = .ok true →
      st.step = .error f → m.Records (k + 1) es →
      Offers m (.error (.fault f)) (m.moved k st) es none
  | strayed {k : Nat} {st : State} {v : Scalar} {es : List Entry} :
      State.after k m.state = .ok st → st.program = .stray v → m.Records k es →
      Offers m (.error (.fault (.notTerm v))) (m.moved k st) es none
  | refused {k : Nat} {st : State} {r : Refusal} {es : List Entry} :
      State.after k m.state = .ok st → m.Records (k + 1) es →
      Offers m (.error (.refused r)) (m.moved k st) es (some r)

theorem run_of_refused
    (h : (travel sink (budget fuel m.limit) m tray).ending = .refused r) :
    m.run fuel sink tray =
      some ⟨.error (.refused r), (travel sink (budget fuel m.limit) m tray).session,
        (travel sink (budget fuel m.limit) m tray).tray,
        startRecord m :: (travel sink (budget fuel m.limit) m tray).records ++ []⟩ := by
  simp only [run, conclude, h, Option.map_some]

/-- What a run offers, its sink receives. -/
theorem run_receives {report : Report σ} (h : m.run fuel sink tray = some report) :
    ∃ o, m.Offers report.result report.session
        (travel sink (budget fuel m.limit) m tray).visited o ∧
      sink.Receives ((travel sink (budget fuel m.limit) m tray).visited.map Entry.texts) tray
        report.tray o := by
  obtain ⟨k, st, -, ha, hm, hr⟩ := travel_reaches sink (budget fuel m.limit) m tray
  have hreceives := travel_receives sink (budget fuel m.limit) m tray
  unfold run conclude at h
  generalize travel sink (budget fuel m.limit) m tray = journey at h hm hr hreceives
  obtain ⟨es, session, tray', records, ending⟩ := journey
  obtain rfl : session = m.moved k st := hm
  cases ending with
  | finished => cases h; exact ⟨none, .finished ha hr.1 hr.2, hreceives⟩
  | stuck f => cases h; exact ⟨none, .stuck ha hr.2.1 hr.2.2.1 hr.2.2.2, hreceives⟩
  | strayed f =>
    cases h
    obtain ⟨v, hv, rfl⟩ := Term.canStep_eq_error_iff.1 hr.1
    exact ⟨none, .strayed ha hv hr.2, hreceives⟩
  | refused r => cases h; exact ⟨some r, .refused ha hr, hreceives⟩
  | spent =>
    obtain ⟨hk, hc, hes⟩ := hr
    cases hl : m.limit with
    | none => rw [hl] at h; cases h
    | some n =>
      rw [hl] at h hk
      cases h
      cases hk
      exact ⟨none, .spent hl ha hc hes, hreceives⟩

theorem not_refused (hsink : ∀ pair tray, (sink.offer pair tray).refusal = none)
    {report : Report σ} (h : m.run fuel sink tray = some report) :
    report.result ≠ .error (.refused r) := by
  intro hr
  obtain ⟨o, hoffers, hreceives⟩ := run_receives h
  obtain rfl : o = none := hreceives.eq_none hsink
  rw [hr] at hoffers
  generalize report.session = m' at hoffers
  cases hoffers

/-- A run that is not refused is the run that nobody watches. -/
theorem run_of_taken
    (h : ∀ report r, m.run fuel sink tray = some report → report.result ≠ .error (.refused r)) :
    (m.run fuel sink tray).map (fun p => (p.result, p.session)) =
      (m.run fuel Sink.silent ()).map fun p => (p.result, p.session) := by
  have htaken : (travel sink (budget fuel m.limit) m tray).ending.refusal? = none := by
    cases he : (travel sink (budget fuel m.limit) m tray).ending with
    | refused r => exact absurd rfl (h _ r (run_of_refused he))
    | _ => rfl
  obtain ⟨hv, hm, he⟩ := travel_of_taken htaken
  unfold run conclude
  simp only [hv, hm, he, Option.map_map]
  cases (travel Sink.silent (budget fuel m.limit) m ()).ending <;> cases m.limit <;> rfl

/-- **A sink is offered exactly what the run records.** Whenever a run ends, its sink has
been offered the entries that belong to the result, once each and in order: those of the
history, also if the history ends at the limit, or those up to the state where the run has
ended. Unless the sink has refused, the run ends as it does with nobody watching, or goes
on for ever as it does then. A sink that refuses the state after `k` steps, having taken
those before it, ends the run at once and in that state. A printing sink has written each
entry on a line of its own. -/
theorem run_offers (sink : Sink σ) (m : Session) (tray : σ) :
    (∀ fuel report, m.run fuel sink tray = some report →
      ∃ es o, m.Offers report.result report.session es o ∧
        sink.Receives (es.map Entry.texts) tray report.tray o) ∧
    (∀ fuel,
      (∀ report r, m.run fuel sink tray = some report → report.result ≠ .error (.refused r)) →
      (m.run fuel sink tray).map (fun p => (p.result, p.session)) =
        (m.run fuel Sink.silent ()).map fun p => (p.result, p.session)) ∧
    (∀ k st more es r tray', State.after k m.state = .ok st → st.program.canStep = .ok more →
      m.Admits k → m.Records (k + 1) es →
      sink.Receives (es.map Entry.texts) tray tray' (some r) → ∀ fuel, k ≤ fuel →
      ∃ report, m.run fuel sink tray = some report ∧ report.result = .error (.refused r) ∧
        report.session = m.moved k st ∧ report.tray = tray') ∧
    (∀ fuel (tray : Tray) report, m.run fuel Sink.print tray = some report →
      ∃ es, m.Offers report.result report.session es none ∧
        report.tray.printed = tray.printed ++ Text.lines (es.map Entry.text) ∧
        ∀ h, report.result = .ok h → report.tray.printed = tray.printed ++ h.lines ++ "\n") := by
  refine ⟨fun fuel report h => ⟨_, run_receives h⟩, fun fuel => run_of_taken, ?_, ?_⟩
  · intro k st more es r tray' ha hc hk hes hr fuel hfuel
    have hbudget : k ≤ budget fuel m.limit := by
      cases hl : m.limit with
      | none => exact hfuel
      | some n => have hk := hk n hl; rw [budget]; omega
    obtain ⟨hm, ht, he⟩ := travel_of_refused ha hc hes hr hbudget
    exact ⟨_, run_of_refused he, rfl, hm, ht⟩
  · intro fuel tray report h
    obtain ⟨o, hoffers, hreceives⟩ := run_receives h
    generalize (travel Sink.print (budget fuel m.limit) m tray).visited = es at hoffers hreceives
    obtain rfl : o = none := hreceives.eq_none fun _ _ => rfl
    have hprinted := hreceives.printed
    rw [List.map_map] at hprinted
    have hlines : report.tray.printed = tray.printed ++ Text.lines (es.map Entry.text) := hprinted
    refine ⟨es, hoffers, hlines, ?_⟩
    intro h hh
    rw [hh] at hoffers
    generalize report.session = m' at hoffers
    cases hoffers with
    | finished _ _ hes =>
      have hne : es.map Entry.text ≠ [] := by
        obtain ⟨rest, rfl, -⟩ := hes.uncons
        exact List.cons_ne_nil _ _
      rw [hlines, Text.lines_eq_joinWith hne, ← String.append_assoc]
      rfl

/-- An assignment of a sum under a sink that takes one state: the sum is formed, the state
with its value is offered and refused, and the assignment is not made. -/
theorem run_offers_assignment :
    let st : State := ⟨.assign "x" (.binary .add (.num 1) (.num 2)), ∅⟩
    let st' : State := ⟨.assign "x" (.num 3), ∅⟩
    let m : Session := ⟨st, 0, none⟩
    m.Records 2 [⟨0, st⟩, ⟨1, st'⟩] ∧
      (Sink.failing 1).Receives [st.texts, st'.texts] Tray.empty ⟨[st.texts], ""⟩
        (some .failed) ∧
      ∃ report, m.run 9 (Sink.failing 1) Tray.empty = some report ∧
        report.result = .error (.refused .failed) ∧ report.session = m.moved 1 st' ∧
        report.tray = ⟨[st.texts], ""⟩ := by
  intro st st' m
  have hes : m.Records 2 [⟨0, st⟩, ⟨1, st'⟩] := .cons rfl (.singleton _)
  have hreceives : (Sink.failing 1).Receives [st.texts, st'.texts] Tray.empty ⟨[st.texts], ""⟩
      (some .failed) := .taken rfl (.refused rfl)
  obtain ⟨-, -, hrefused, -⟩ := run_offers (Sink.failing 1) m Tray.empty
  exact ⟨hes, hreceives,
    hrefused 1 st' true _ .failed _ rfl rfl nofun hes hreceives 9 (by decide)⟩

end Session

end Stepwise
