import Stepwise.Proofs.Session.Journey
import Stepwise.Session.Bench
import Stepwise.Catalog

/-!
# Schedules

A session may be stepped, run and walked in any order, by any number of walkers at once,
and with commands that fail in between. Whatever the order, it only ever goes along the
states that follow its first one: after `k` steps it stands in the `k`-th of them, and
every entry that anyone is shown is one of them with its own number.

`Session.Shows` says that an entry shows one of the states that follow a session's.
Every operation on a session keeps to them (`act_shows`), and so does every sequence of
actions (`Drives.shows`) that leaves the program alone.

Main statement: `schedule_independent`.
-/

namespace Stepwise

namespace Session

variable {σ : Type} {m m' : Session} {st : State} {e : Entry} {es : List Entry} {k n : Nat}

/-- The entry shows one of the states that follow the session's, with its number. -/
def Shows (m : Session) (e : Entry) : Prop :=
  ∃ k, e.index = ((m.taken + k : Nat) : Int) ∧ State.after k m.state = .ok e.state

theorem Shows.self (m : Session) : m.Shows m.entry := ⟨0, rfl, rfl⟩

theorem Shows.of_moved (h : State.after k m.state = .ok st) : m.Shows (m.moved k st).entry :=
  ⟨k, rfl, h⟩

theorem Shows.of_step (h : m.step = .ok m') : m.Shows m'.entry := by
  obtain ⟨st, hst, rfl⟩ := step_eq_ok_iff.1 h
  exact .of_moved ((State.after_one _).trans hst)

theorem Shows.taken_le (h : m.Shows m'.entry) : m.taken ≤ m'.taken := by
  obtain ⟨k, hk, -⟩ := h
  have hk : (m'.taken : Int) = ((m.taken + k : Nat) : Int) := hk
  omega

/-- What follows a session on the way follows the session. -/
theorem Shows.trans (h : m.Shows m'.entry) (h' : m'.Shows e) : m.Shows e := by
  obtain ⟨j, hj, ha⟩ := h
  obtain ⟨k, hk, hb⟩ := h'
  have hj : (m'.taken : Int) = ((m.taken + j : Nat) : Int) := hj
  exact ⟨j + k, by omega, State.after_trans ha hb⟩

/-! ## Every operation keeps to the states that follow -/

theorem Records.shows (h : m.Records n es) (he : e ∈ es) : m.Shows e := by
  obtain ⟨i, hi⟩ := List.mem_iff_getElem?.1 he
  obtain ⟨hindex, hafter⟩ := h.2 i e hi
  exact ⟨i, hindex, hafter⟩

theorem Reached.shows {budget : Nat} {ending : Ending}
    (h : m.Reached budget k st es ending) (he : e ∈ es) : m.Shows e := by
  cases ending with
  | finished => exact h.2.shows he
  | spent => exact h.2.2.shows he
  | stuck f => exact h.2.2.2.shows he
  | strayed f => exact h.2.shows he
  | refused r => exact Records.shows h he

theorem travel_shows (sink : Sink σ) (budget : Nat) (m : Session) (tray : σ) :
    m.Shows (travel sink budget m tray).session.entry ∧
      ∀ e ∈ (travel sink budget m tray).visited, m.Shows e := by
  obtain ⟨k, st, -, ha, hm, hr⟩ := travel_reaches sink budget m tray
  constructor
  · rw [hm]
    exact .of_moved ha
  · intro e he
    exact hr.shows he

theorem look_session (m : Session) : (Walker.look m).session = m := by
  unfold Walker.look
  split <;> rfl

theorem look_shows (h : (Walker.look m).shown = .ok (some e)) : m.Shows e := by
  unfold Walker.look at h
  split at h
  · cases h
  · cases h
    exact .self m
  · cases h
    exact .self m

theorem next_shows (w : Walker) (m : Session) :
    m.Shows (w.next m).session.entry ∧
      ∀ e, (w.next m).shown = .ok (some e) → m.Shows e := by
  cases w with
  | fresh =>
    rw [Walker.next, look_session]
    exact ⟨.self m, fun e => look_shows⟩
  | paused =>
    rw [Walker.next]
    cases hs : m.step with
    | error f => exact ⟨.self m, nofun⟩
    | ok m' =>
      have hm : m.Shows m'.entry := .of_step hs
      simp only [look_session]
      exact ⟨hm, fun e he => hm.trans (look_shows he)⟩
  | done => exact ⟨.self m, nofun⟩

theorem take_shows (n : Nat) (m : Session) :
    m.Shows (m.take n).1.entry ∧ ∀ es, (m.take n).2 = .ok es → ∀ e ∈ es, m.Shows e := by
  induction n generalizing m with
  | zero =>
    rw [take]
    cases m.canStep with
    | error f => exact ⟨.self m, nofun⟩
    | ok more =>
      refine ⟨.self m, ?_⟩
      intro es hes e he
      cases hes
      cases he
  | succ n ih =>
    rw [take]
    cases m.canStep with
    | error f => exact ⟨.self m, nofun⟩
    | ok more =>
      cases more with
      | false =>
        refine ⟨.self m, ?_⟩
        intro es hes e he
        cases hes
        rw [List.mem_singleton.1 he]
        exact .self m
      | true =>
        simp only [if_true]
        cases hs : m.step with
        | error f => exact ⟨.self m, nofun⟩
        | ok m' =>
          have hm : m.Shows m'.entry := .of_step hs
          obtain ⟨hlast, hrest⟩ := ih m'
          refine ⟨hm.trans hlast, ?_⟩
          intro es hes e he
          obtain ⟨rest, hr, rfl⟩ := map_eq_ok_iff.1 hes
          rcases List.mem_cons.1 he with rfl | he
          · exact .self m
          · exact hm.trans (hrest rest hr e he)

/-- The report of a run is about its journey. -/
theorem run_report {fuel : Nat} {sink : Sink σ} {tray : σ} {report : Report σ}
    (h : m.run fuel sink tray = some report) :
    report.session = (travel sink (budget fuel m.limit) m tray).session ∧
      (∀ h, report.result = .ok h →
        h.entries = (travel sink (budget fuel m.limit) m tray).visited) ∧
      ∀ n h, report.result = .error (.limit n h) →
        h.entries = (travel sink (budget fuel m.limit) m tray).visited := by
  unfold run conclude at h
  generalize travel sink (budget fuel m.limit) m tray = journey at h ⊢
  obtain ⟨c, hc, rfl⟩ := Option.map_eq_some_iff.1 h
  refine ⟨rfl, ?_⟩
  split at hc
  all_goals cases hc
  all_goals simp [eq_comm]

/-! ## From the start -/

theorem start_taken {program : Term} {draft : Draft} {limit : Option Int}
    (h : Session.start program draft limit = .ok m) : m.taken = 0 := by
  unfold Session.start at h
  split at h
  · cases h
  · split at h
    · cases h
    · split at h
      · cases h
      · cases h
        rfl

/-- What follows a session that has just been started is numbered from its first state
on. -/
theorem Shows.of_start (hm : m.taken = 0) (h : m.Shows e) :
    ∃ j : Nat, e.index = j ∧ State.after j m.state = .ok e.state := by
  obtain ⟨j, hindex, hafter⟩ := h
  rw [hm, Nat.zero_add] at hindex
  exact ⟨j, hindex, hafter⟩

theorem Shows.after_taken (hm : m.taken = 0) (h : m.Shows m'.entry) :
    State.after m'.taken m.state = .ok m'.state := by
  obtain ⟨j, hindex, hafter⟩ := h.of_start hm
  obtain rfl : m'.taken = j := Int.ofNat.inj hindex
  exact hafter

end Session

/-! ## Actions -/

/-- The action leaves the program to the session. -/
def Action.keepsProgram : Action → Bool
  | setProgram _ => false
  | _ => true

/-- The entries that an outcome shows. A run that reaches its limit shows what it has
recorded by then. -/
def Outcome.shown : Outcome → List Entry
  | entry e => [e]
  | entries es => es
  | history h => h.entries
  | stopped (.limit _ h) => h.entries
  | _ => []

namespace Bench

variable {σ : Type} {sink : Sink σ} {fuel : Nat} {a : Action} {o : Outcome}
  {b b' b'' : Bench σ} {as : List Action}

/-- The entries that an action records and offers to the sink, whether or not it
succeeds. -/
def recorded (fuel : Nat) (sink : Sink σ) (b : Bench σ) : Action → List Entry
  | .run => (Session.travel sink (Session.budget fuel b.session.limit) b.session b.tray).visited
  | _ => []

theorem step_shows (b : Bench σ) :
    b.session.Shows b.step.1.session.entry ∧ ∀ e ∈ b.step.2.shown, b.session.Shows e := by
  rw [Bench.step]
  cases hs : b.session.step with
  | error f => exact ⟨.self _, nofun⟩
  | ok m =>
    have hm : b.session.Shows m.entry := .of_step hs
    refine ⟨hm, ?_⟩
    intro e he
    rw [List.mem_singleton.1 he]
    exact hm

theorem run_shows (h : b.run fuel sink = some (b', o)) :
    b.session.Shows b'.session.entry ∧ ∀ e ∈ o.shown, b.session.Shows e := by
  obtain ⟨report, hrun, hr⟩ := Option.map_eq_some_iff.1 h
  obtain ⟨hsession, hok, hlimit⟩ := Session.run_report hrun
  obtain ⟨hlast, hvisited⟩ := Session.travel_shows sink
    (Session.budget fuel b.session.limit) b.session b.tray
  cases hr
  refine ⟨?_, ?_⟩
  · show b.session.Shows report.session.entry
    rw [hsession]
    exact hlast
  · intro e he
    apply hvisited e
    cases hres : report.result with
    | ok h =>
      rw [hres] at he
      rw [← hok h hres]
      exact he
    | error s =>
      rw [hres] at he
      cases s with
      | limit n h =>
        rw [← hlimit n h hres]
        exact he
      | fault f => cases he
      | refused r => cases he

theorem advance_shows (i : Nat) (b : Bench σ) :
    b.session.Shows (b.advance i).1.session.entry ∧
      ∀ e ∈ (b.advance i).2.shown, b.session.Shows e := by
  rw [Bench.advance]
  cases b.walkers[i]? with
  | none => exact ⟨.self _, nofun⟩
  | some w =>
    obtain ⟨hlast, hshown⟩ := Session.next_shows w b.session
    refine ⟨hlast, ?_⟩
    intro e he
    cases hs : (w.next b.session).shown with
    | error f => simp [Outcome.ofExcept, hs, Outcome.shown] at he
    | ok shown =>
      cases shown with
      | none => simp [Outcome.ofExcept, hs, Outcome.shown] at he
      | some e' =>
        obtain rfl : e = e' := by simpa [Outcome.ofExcept, hs, Outcome.shown] using he
        exact hshown e hs

theorem recorded_shows (fuel : Nat) (sink : Sink σ) (b : Bench σ) (a : Action) :
    ∀ e ∈ b.recorded fuel sink a, b.session.Shows e := by
  cases a with
  | run => exact (Session.travel_shows _ _ _ _).2
  | _ => nofun

/-- **One action** leads the session along the states that follow, and shows no others. -/
theorem act_shows (ha : a.keepsProgram = true) (h : b.act fuel sink a = some (b', o)) :
    b.session.Shows b'.session.entry ∧ ∀ e ∈ o.shown, b.session.Shows e := by
  cases a with
  | step =>
    have hstep : b.step = (b', o) := Option.some.inj h
    have hshows := b.step_shows
    rw [hstep] at hshows
    exact hshows
  | run => exact run_shows h
  | look =>
    cases h
    refine ⟨.self _, ?_⟩
    intro e he
    rw [List.mem_singleton.1 he]
    exact .self _
  | canStep =>
    cases h
    refine ⟨.self _, ?_⟩
    cases b.session.canStep <;> nofun
  | display => cases h; exact ⟨.self _, nofun⟩
  | take n =>
    cases h
    obtain ⟨hlast, hshown⟩ := Session.take_shows n b.session
    refine ⟨hlast, ?_⟩
    intro e he
    cases hs : (b.session.take n).2 with
    | error f => simp [Outcome.ofExcept, hs, Outcome.shown] at he
    | ok es =>
      have he : e ∈ es := by simpa [Outcome.ofExcept, hs, Outcome.shown] using he
      exact hshown es hs e he
  | openWalker => cases h; exact ⟨.self _, nofun⟩
  | advance i =>
    have hadvance : b.advance i = (b', o) := Option.some.inj h
    have hshows := b.advance_shows i
    rw [hadvance] at hshows
    exact hshows
  | setProgram t => cases ha
  | setLimit limit => cases h; exact ⟨.self _, nofun⟩

/-! ## Sequences of actions -/

/-- The actions, one after another and each of them to its end, drive one bench to
another. None of them puts in a program from outside. -/
inductive Drives (sink : Sink σ) : Bench σ → List Action → Bench σ → Prop
  | nil {b : Bench σ} : Drives sink b [] b
  | cons {b b' b'' : Bench σ} {a : Action} {n : Nat} {o : Outcome} {as : List Action} :
      a.keepsProgram = true → b.act n sink a = some (b', o) → Drives sink b' as b'' →
      Drives sink b (a :: as) b''

/-- Does actions one after another and gives each run among them the same fuel. -/
def perform (fuel : Nat) (sink : Sink σ) : Bench σ → List Action → Option (Bench σ)
  | b, [] => some b
  | b, a :: as => (b.act fuel sink a).bind fun done => perform fuel sink done.1 as

theorem Drives.of_perform (has : ∀ a ∈ as, a.keepsProgram = true)
    (h : b.perform fuel sink as = some b') : Drives sink b as b' := by
  induction as generalizing b with
  | nil => cases h; exact .nil
  | cons a as ih =>
    obtain ⟨⟨b₁, o⟩, hact, hrest⟩ := Option.bind_eq_some_iff.1 h
    have ha : a.keepsProgram = true := has a List.mem_cons_self
    exact .cons ha hact (ih (fun a' ha' => has a' (List.mem_cons_of_mem a ha')) hrest)

theorem Drives.shows (h : Drives sink b as b') : b.session.Shows b'.session.entry := by
  induction h with
  | nil => exact .self _
  | cons ha hact _ ih => exact (act_shows ha hact).1.trans ih

/-- A step that fails leaves everything as it was. -/
theorem step_stopped {s : Stop} (h : b.step = (b', .stopped s)) : b' = b := by
  rw [Bench.step] at h
  cases hs : b.session.step with
  | ok m => rw [hs] at h; cases h
  | error f => rw [hs] at h; cases h; rfl

/-- **The order of the actions does not matter.** Take any session that a start gives,
and any actions that leave the program to it, with any sink. Then the session stands in
the state that its number of steps says. Whatever the next action records is the state
of its number, even if it is a run that never ends. When the action is done, whether or
not it has failed, the session has gone along to such a state again and never back;
whatever is shown is the state of its number; and a step that has failed leaves
everything as it was. Hence two sessions that started in the same state and have taken
equally many steps are in the same state. -/
theorem schedule_independent {program : Term} {draft : Draft} {limit : Option Int}
    {m : Session} (hm : Session.start program draft limit = .ok m) {tray : σ}
    (hd : Drives sink (ofSession m tray) as b) :
    State.after b.session.taken m.state = .ok b.session.state ∧
    (∀ fuel a, ∀ e ∈ b.recorded fuel sink a,
      ∃ j : Nat, e.index = j ∧ State.after j m.state = .ok e.state) ∧
    (∀ fuel a b' o, a.keepsProgram = true → b.act fuel sink a = some (b', o) →
      State.after b'.session.taken m.state = .ok b'.session.state ∧
      b.session.taken ≤ b'.session.taken ∧
      (∀ e ∈ o.shown, ∃ j : Nat, e.index = j ∧ State.after j m.state = .ok e.state) ∧
      (∀ s, a = .step → o = .stopped s → b' = b)) ∧
    (∀ (σ' : Type) (sink' : Sink σ') (tray' : σ') program' draft' limit' m' as' b',
      Session.start program' draft' limit' = .ok m' → m'.state = m.state →
      Drives sink' (ofSession m' tray') as' b' →
      b'.session.taken = b.session.taken → b'.session.state = b.session.state) := by
  have hzero : m.taken = 0 := Session.start_taken hm
  have hb : m.Shows b.session.entry := hd.shows
  have hafter : State.after b.session.taken m.state = .ok b.session.state :=
    hb.after_taken hzero
  refine ⟨hafter, ?_, ?_, ?_⟩
  · intro fuel a e he
    exact (hb.trans (recorded_shows fuel sink b a e he)).of_start hzero
  · intro fuel a b' o ha hact
    obtain ⟨hlast, hshown⟩ := act_shows ha hact
    refine ⟨(hb.trans hlast).after_taken hzero, hlast.taken_le, ?_, ?_⟩
    · intro e he
      exact (hb.trans (hshown e he)).of_start hzero
    · intro s ha ho
      subst ha ho
      exact step_stopped (Option.some.inj hact)
  · intro σ' sink' tray' program' draft' limit' m' as' b' hm' hstate hd' htaken
    have hafter' := hd'.shows.after_taken (Session.start_taken hm')
    rw [hstate, show b'.session.taken = b.session.taken from htaken] at hafter'
    exact Except.ok.inj (hafter'.symm.trans hafter)

/-- The loop that triples a variable, run with a sink that refuses its fourth state, then
walked and stepped by turns. -/
theorem schedule_independent_tripling :
    ∃ m, Session.start Catalog.tripling (Table.ofList [(.text "x", .num 1)]) none = .ok m ∧
      ∃ b, Drives (Sink.failing 3) (ofSession m Tray.empty)
          [.openWalker, .run, .advance 0, .step, .advance 0] b ∧
        b.session.taken = 5 ∧ State.after 5 m.state = .ok b.session.state ∧
        ∀ o b', b.act 0 (Sink.failing 3) .step = some (b', o) →
          State.after b'.session.taken m.state = .ok b'.session.state := by
  have hm : Session.start Catalog.tripling (Table.ofList [(.text "x", .num 1)]) none =
    .ok (.begin Catalog.tripling (Table.ofList [("x", .num 1)]) none) := rfl
  have hperform : (perform 9 (Sink.failing 3)
      (ofSession (.begin Catalog.tripling (Table.ofList [("x", .num 1)]) none) Tray.empty)
      [.openWalker, .run, .advance 0, .step, .advance 0]).map (·.session.taken) = some 5 := by
    decide +kernel
  obtain ⟨b, hb, htaken⟩ := Option.map_eq_some_iff.1 hperform
  have hd := Drives.of_perform (by decide) hb
  obtain ⟨hafter, -, hact, -⟩ := schedule_independent hm hd
  refine ⟨_, hm, b, hd, htaken, htaken ▸ hafter, ?_⟩
  intro o b' h
  exact (hact 0 .step b' o rfl h).1

end Bench

end Stepwise
