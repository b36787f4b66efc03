import Stepwise.Proofs.Session.Schedule
import Stepwise.Proofs.Session.Pieces

/-!
# Walkers among other actions

Any number of walkers may show the states of one session while it is stepped, run and
changed between their showings, its program included. Of one showing, `Walker.Shown` says
all that can happen. From it follows what a walker owes to what it has shown so far
(`Walker.Owes`), and every sequence of actions keeps it (`Logs.owes`): a walker shows the
session as it is at that moment, always with a higher number than before, and after the
last program or a fault it only tells that it is exhausted.

A walker that is left alone with the session shows what a run without a limit records, and
stops where that stops (`tour_fresh`).

Main statement: `walker_protocol`.
-/

namespace Stepwise

/-- What a showing tells. -/
def Showing.outcome (s : Showing) : Outcome :=
  .ofExcept (fun shown => shown.elim .exhausted .entry) s.shown

/-- The outcome is the last of a walker's: a program without a step left, or a fault. -/
def Outcome.IsLast : Outcome → Prop
  | entry e => e.state.program.canStep = .ok false
  | stopped _ => True
  | _ => False

namespace Walker

variable {w : Walker} {m m' : Session} {s : Showing} {os : List Outcome}

/-! ## One showing -/

/-- The walker comes to look at the session `m'`: the first time it looks at the session
as it is, and later it steps the session first. -/
inductive Looks (m : Session) : Walker → Session → Prop
  | first : Looks m .fresh m
  | later {m' : Session} : m.step = .ok m' → Looks m .paused m'

/-- All that can come of one showing. -/
inductive Shown (m : Session) (w : Walker) : Showing → Prop
  | more {m' : Session} : Looks m w m' → m'.canStep = .ok true →
      Shown m w ⟨.paused, m', .ok (some m'.entry)⟩
  | last {m' : Session} : Looks m w m' → m'.canStep = .ok false →
      Shown m w ⟨.done, m', .ok (some m'.entry)⟩
  | strayed {m' : Session} {f : Fault} : Looks m w m' → m'.canStep = .error f →
      Shown m w ⟨.done, m', .error f⟩
  | stuck {f : Fault} : w = .paused → m.step = .error f → Shown m w ⟨.done, m, .error f⟩
  | exhausted : w = .done → Shown m w ⟨.done, m, .ok none⟩

theorem Looks.shown (h : Looks m w m') : Shown m w (look m') := by
  unfold look
  split
  case h_1 f hc => exact .strayed h hc
  case h_2 hc => exact .more h hc
  case h_3 hc => exact .last h hc

theorem next_shown (w : Walker) (m : Session) : Shown m w (w.next m) := by
  cases w with
  | fresh => exact Looks.first.shown
  | paused =>
    rw [next]
    cases hs : m.step with
    | error f => exact .stuck rfl hs
    | ok m' => exact (Looks.later hs).shown
  | done => exact .exhausted rfl

theorem Looks.session (h : Looks m w m') : m' = m ∨ m.step = .ok m' := by
  cases h with
  | first => exact .inl rfl
  | later hs => exact .inr hs

/-- One showing takes at most one step. -/
theorem Shown.session (h : Shown m w s) : s.session = m ∨ m.step = .ok s.session := by
  cases h with
  | more hl => exact hl.session
  | last hl => exact hl.session
  | strayed hl => exact hl.session
  | stuck => exact .inl rfl
  | exhausted => exact .inl rfl

theorem Shown.session_of_fresh (h : Shown m .fresh s) : s.session = m := by
  cases h with
  | more hl => cases hl; rfl
  | last hl => cases hl; rfl
  | strayed hl => cases hl; rfl
  | stuck => rfl
  | exhausted => rfl

/-- A walker tells that it is exhausted exactly if it was done before. -/
theorem Shown.exhausted_iff (h : Shown m w s) : s.outcome = .exhausted ↔ w = .done := by
  cases h with
  | more hl => cases hl <;> exact ⟨nofun, nofun⟩
  | last hl => cases hl <;> exact ⟨nofun, nofun⟩
  | strayed hl => cases hl <;> exact ⟨nofun, nofun⟩
  | stuck hw => subst hw; exact ⟨nofun, nofun⟩
  | exhausted hw => exact ⟨fun _ => hw, fun _ => rfl⟩

/-- A showing tells an entry of the session as it is then, a fault, or that there is
nothing more. -/
theorem Shown.outcome (h : Shown m w s) :
    s.outcome = .entry s.session.entry ∨
      (∃ f, s.outcome = .stopped (.fault f) ∧
        (s.session.canStep = .error f ∨ m.step = .error f)) ∨
      s.outcome = .exhausted := by
  cases h with
  | more => exact .inl rfl
  | last => exact .inl rfl
  | strayed _ hc => exact .inr (.inl ⟨_, rfl, .inl hc⟩)
  | stuck _ hs => exact .inr (.inl ⟨_, rfl, .inr hs⟩)
  | exhausted => exact .inr (.inr rfl)

/-! ## What a walker owes to what it has told -/

/-- Where a walker stands on a session after it has told `os`. -/
structure Owes (w : Walker) (m : Session) (os : List Outcome) : Prop where
  fresh : w = .fresh ↔ os = []
  done : w = .done ↔ ∃ o ∈ os, o.IsLast
  index : ∀ e, .entry e ∈ os → e.index ≤ m.entry.index

theorem Owes.nil (m : Session) : Owes .fresh m [] := by
  refine ⟨⟨fun _ => rfl, fun _ => rfl⟩, ⟨nofun, ?_⟩, nofun⟩
  intro h
  obtain ⟨o, ho, -⟩ := h
  cases ho

/-- Others may lead the session on. -/
theorem Owes.mono (h : Owes w m os) (hm : m.taken ≤ m'.taken) : Owes w m' os := by
  refine ⟨h.fresh, h.done, ?_⟩
  intro e he
  exact Int.le_trans (h.index e he) (Int.ofNat_le.2 hm)

theorem Looks.index_lt {e : Entry} (h : Owes w m os) (hl : Looks m w m') (he : .entry e ∈ os) :
    e.index < m'.entry.index := by
  cases hl with
  | first =>
    rw [h.fresh.1 rfl] at he
    cases he
  | later hs =>
    obtain ⟨st, -, rfl⟩ := Session.step_eq_ok_iff.1 hs
    have hle : e.index ≤ (m.taken : Int) := h.index e he
    show e.index < ((m.taken + 1 : Nat) : Int)
    omega

/-- Every entry has a higher number than those before. -/
theorem Owes.index_lt {e : Entry} (h : Owes w m os) (hs : Shown m w s)
    (hentry : s.outcome = .entry s.session.entry) (he : .entry e ∈ os) :
    e.index < s.session.entry.index := by
  cases hs with
  | more hl => exact hl.index_lt h he
  | last hl => exact hl.index_lt h he
  | strayed => cases hentry
  | stuck => cases hentry
  | exhausted => cases hentry

theorem Shown.taken_le (h : Shown m w s) : m.taken ≤ s.session.taken := by
  rcases h.session with hs | hs
  · exact Nat.le_of_eq (congrArg Session.taken hs.symm)
  · exact (Session.Shows.of_step hs).taken_le

/-- A showing makes the walker done exactly if it tells the last, or it was done before. -/
theorem Shown.done_iff (h : Shown m w s) : s.walker = .done ↔ w = .done ∨ s.outcome.IsLast := by
  cases h with
  | more hl hc =>
    refine ⟨nofun, ?_⟩
    rintro (rfl | hlast)
    · cases hl
    · cases hc.symm.trans hlast
  | last _ hc => exact ⟨fun _ => .inr hc, fun _ => rfl⟩
  | strayed => exact ⟨fun _ => .inr trivial, fun _ => rfl⟩
  | stuck => exact ⟨fun _ => .inr trivial, fun _ => rfl⟩
  | exhausted hw => exact ⟨fun _ => .inl hw, fun _ => rfl⟩

theorem Shown.not_fresh (h : Shown m w s) : s.walker ≠ .fresh := by
  cases h <;> nofun

theorem Owes.next (h : Owes w m os) (hs : Shown m w s) :
    Owes s.walker s.session (os ++ [s.outcome]) := by
  refine ⟨?_, ?_, ?_⟩
  · constructor
    · intro hw
      exact absurd hw hs.not_fresh
    · simp
  · rw [hs.done_iff, h.done]
    simp [or_and_right, exists_or]
  · intro e he
    rcases List.mem_append.1 he with he | he
    · exact Int.le_trans (h.index e he) (Int.ofNat_le.2 hs.taken_le)
    · have ho : s.outcome = .entry e := (List.mem_singleton.1 he).symm
      rcases hs.outcome with hentry | ⟨f, hf, -⟩ | hx
      · cases ho.symm.trans hentry
        exact Int.le_refl _
      · cases ho.symm.trans hf
      · cases ho.symm.trans hx

/-! ## A walker alone -/

/-- What a walker tells in `n` showings with nothing between them, and the session they
leave. -/
def tour : Nat → Walker → Session → List Outcome × Session
  | 0, _, m => ([], m)
  | n + 1, w, m =>
    let rest := tour n (w.next m).walker (w.next m).session
    ((w.next m).outcome :: rest.1, rest.2)

theorem tour_succ (n : Nat) (h : w.next m = s) :
    tour (n + 1) w m = (s.outcome :: (tour n s.walker s.session).1,
      (tour n s.walker s.session).2) := by
  rw [tour, h]

theorem tour_done (n : Nat) (m : Session) :
    tour n .done m = (List.replicate n .exhausted, m) := by
  induction n with
  | zero => rfl
  | succ n ih =>
    rw [tour_succ n rfl]
    show (_ :: (tour n .done m).1, (tour n .done m).2) = _
    rw [ih]
    rfl

/-- A walker that steps the session goes on as a new one would from the next state. -/
theorem tour_paused (n : Nat) (hs : m.step = .ok m') :
    tour (n + 1) .paused m = tour (n + 1) .fresh m' := by
  have hnext : Walker.paused.next m = Walker.fresh.next m' := by simp only [next, hs]
  rw [tour_succ n hnext, tour_succ n rfl]

theorem fresh_next {more : Bool} (hc : m.canStep = .ok more) :
    Walker.fresh.next m = ⟨if more then .paused else .done, m, .ok (some m.entry)⟩ := by
  rw [next, look, hc]
  cases more <;> rfl

end Walker

/-- The fault that has ended a journey, if one has. -/
def Ending.fault? : Ending → Option Fault
  | stuck f => some f
  | strayed f => some f
  | _ => none

/-- What a walker tells on a journey: the states recorded, and then the fault that has ended
it, if one has. -/
def Journey.told {σ : Type} (j : Journey σ) : List Outcome :=
  j.visited.map .entry ++ (j.ending.fault?.map fun f => .stopped (.fault f)).toList

namespace Session

variable {σ : Type} {sink : Sink σ} {m : Session} {n fuel : Nat} {tray : σ}

theorem told_after (e : Entry) (records : List Record) (j : Journey σ) :
    (j.after e records).told = .entry e :: j.told := rfl

/-- Every journey has something to tell. -/
theorem travel_told_ne_nil (sink : Sink σ) (n : Nat) (m : Session) (tray : σ) :
    (travel sink n m tray).told ≠ [] := by
  fun_induction travel sink n m tray <;> exact List.cons_ne_nil _ _

/-- The first `n` of the outcomes. After the last of them the walker is exhausted. -/
def firsts (n : Nat) (os : List Outcome) : List Outcome := (os.take n).rightpad n .exhausted

theorem firsts_nil (n : Nat) : firsts n [] = List.replicate n .exhausted := by
  simp [firsts, List.rightpad]

theorem firsts_cons (n : Nat) (o : Outcome) (os : List Outcome) :
    firsts (n + 1) (o :: os) = o :: firsts n os := by
  simp [firsts, List.rightpad]

theorem firsts_length (os : List Outcome) : firsts os.length os = os := by
  simp [firsts, List.rightpad]

/-- **A walker alone shows what a journey records**, and its last word is the fault that
ends the journey. -/
theorem tour_fresh (k n : Nat) (m : Session)
    (h : (travel Sink.silent k m ()).ending = .spent → n ≤ k) :
    (Walker.fresh.tour (n + 1) m).1 = firsts (n + 1) (travel Sink.silent k m ()).told ∧
      ((travel Sink.silent k m ()).told.length ≤ n + 1 →
        (Walker.fresh.tour (n + 1) m).2 = (travel Sink.silent k m ()).session) := by
  fun_induction travel Sink.silent k m () generalizing n with
  | case1 k m t f hc =>
    have hnext : Walker.fresh.next m = ⟨.done, m, .error f⟩ := by
      rw [Walker.next, Walker.look, hc]
    rw [Walker.tour_succ n hnext, Walker.tour_done]
    exact ⟨((firsts_cons _ _ _).trans (congrArg _ (firsts_nil n))).symm, fun _ => rfl⟩
  | case2 _ _ _ _ _ _ _ hr => cases hr
  | case3 m _ _ _ hc =>
    obtain rfl : n = 0 := Nat.le_zero.1 (h rfl)
    rw [Walker.tour_succ 0 (Walker.fresh_next hc)]
    exact ⟨rfl, fun _ => rfl⟩
  | case4 m _ _ _ _ f hs hc =>
    rw [Walker.tour_succ n (Walker.fresh_next hc)]
    cases n with
    | zero => exact ⟨rfl, fun _ => rfl⟩
    | succ n =>
      have hnext : Walker.paused.next m = ⟨.done, m, .error f⟩ := by rw [Walker.next, hs]
      simp only [if_true, Walker.tour_succ n hnext, Walker.tour_done, Journey.told,
        Ending.fault?]
      refine ⟨?_, fun _ => trivial⟩
      show _ = firsts (n + 2) [_, _]
      rw [firsts_cons, firsts_cons, firsts_nil]
      rfl
  | case5 m _ _ _ k m' hs hc ih =>
    rw [Walker.tour_succ n (Walker.fresh_next hc), told_after, firsts_cons]
    cases n with
    | zero =>
      refine ⟨rfl, ?_⟩
      intro hle
      exact absurd (List.eq_nil_of_length_eq_zero (Nat.le_zero.1 (Nat.le_of_succ_le_succ hle)))
        (travel_told_ne_nil _ _ _ _)
    | succ n =>
      obtain ⟨hos, hm⟩ := ih n fun he => Nat.le_of_succ_le_succ (h he)
      simp only [if_true, Walker.tour_paused n hs]
      exact ⟨congrArg _ hos, fun hle => hm (Nat.le_of_succ_le_succ hle)⟩
  | case6 _ m _ more hc _ _ hmore =>
    obtain rfl : more = false := by simpa using hmore
    rw [Walker.tour_succ n (Walker.fresh_next hc)]
    show _ :: (Walker.tour n .done m).1 = _ ∧ (_ → (Walker.tour n .done m).2 = m)
    rw [Walker.tour_done]
    exact ⟨((firsts_cons _ _ _).trans (congrArg _ (firsts_nil n))).symm, fun _ => rfl⟩

/-- What a walker tells at the end of a run with this result. -/
def closing : Except Stop History → List Outcome
  | .ok _ => []
  | .error s => [.stopped s]

theorem run_told {report : Report Unit}
    (h : (m.under none).run fuel Sink.silent () = some report) :
    (travel Sink.silent fuel m ()).ending ≠ .spent ∧
      (travel Sink.silent fuel m ()).session.entry = report.session.entry ∧
      (travel Sink.silent fuel m ()).told =
        (travel Sink.silent fuel m ()).visited.map .entry ++ closing report.result := by
  have htaken : (travel Sink.silent fuel m ()).ending.refusal? = none :=
    (travel_receives Sink.silent fuel m ()).eq_none Sink.silent_takes
  unfold run conclude at h
  rw [travel_under] at h
  simp only [under, budget] at h
  unfold Journey.told
  generalize travel Sink.silent fuel m () = journey at h htaken ⊢
  obtain ⟨es, session, tray, records, ending⟩ := journey
  cases ending with
  | spent => cases h
  | refused r => cases htaken
  | _ =>
    cases h
    refine ⟨?_, rfl, rfl⟩
    intro hspent
    cases hspent

/-- A walker that starts where a run without a limit starts shows what the run has offered,
and then the fault that has ended it. -/
theorem tour_of_run {report : Report Unit}
    (h : (m.under none).run fuel Sink.silent () = some report) (n : Nat) :
    ∃ es, (m.under none).Offers report.result report.session es none ∧
      (Walker.fresh.tour n m).1 = firsts n (es.map .entry ++ closing report.result) ∧
      ((es.map Outcome.entry ++ closing report.result).length ≤ n →
        (Walker.fresh.tour n m).2.entry = report.session.entry) := by
  obtain ⟨o, hoffers, hreceives⟩ := run_receives h
  obtain rfl : o = none := hreceives.eq_none Sink.silent_takes
  have hvisited : (travel Sink.silent (budget fuel (m.under none).limit) (m.under none) ()).visited =
      (travel Sink.silent fuel m ()).visited := by
    rw [travel_under]
    rfl
  obtain ⟨hspent, hentry, htold⟩ := run_told h
  refine ⟨_, hoffers, ?_⟩
  rw [hvisited, ← htold]
  cases n with
  | zero =>
    refine ⟨rfl, ?_⟩
    intro hle
    exact absurd (List.eq_nil_of_length_eq_zero (Nat.le_zero.1 hle)) (travel_told_ne_nil _ _ _ _)
  | succ n =>
    obtain ⟨hos, hm⟩ := tour_fresh fuel n m fun he => absurd he hspent
    refine ⟨hos, ?_⟩
    intro hle
    rw [hm hle]
    exact hentry

/-- Where a run without a limit never ends, a walker shows the states that follow and
nothing else. -/
theorem tour_of_endless (h : (m.under none).Endless) (n : Nat) :
    ∃ es, m.Records n es ∧ (Walker.fresh.tour n m).1 = es.map .entry := by
  cases n with
  | zero => exact ⟨[], .nil m, rfl⟩
  | succ n =>
    have hspent : (travel Sink.silent n m ()).ending = .spent := by
      have hrun := h n
      unfold run conclude at hrun
      rw [travel_under] at hrun
      simp only [under, budget] at hrun
      cases he : (travel Sink.silent n m ()).ending with
      | spent => rfl
      | _ => rw [he] at hrun; cases hrun
    obtain ⟨k, st, -, ha, -, hr⟩ := travel_reaches Sink.silent n m ()
    obtain ⟨hos, -⟩ := tour_fresh n n m fun _ => Nat.le_refl n
    rw [hspent] at hr
    obtain ⟨rfl, -, hes⟩ := hr
    refine ⟨_, hes, ?_⟩
    rw [hos, Journey.told, hspent]
    show firsts (k + 1) (_ ++ []) = _
    rw [List.append_nil, ← hes.1, ← List.length_map, firsts_length]

end Session

namespace Bench

variable {σ : Type} {sink : Sink σ} {b b' b₁ : Bench σ} {a : Action} {o : Outcome}
  {os : List Outcome} {log : List (Action × Outcome)} {w : Walker} {i n : Nat}

/-! ## Walkers and the actions between their showings -/

theorem advance_eq (hw : b.walkers[i]? = some w) :
    b.advance i =
      ({ b with session := (w.next b.session).session,
                walkers := b.walkers.set i (w.next b.session).walker },
        (w.next b.session).outcome) := by
  rw [advance, hw]
  rfl

theorem advance_walkers (hw : b.walkers[i]? = some w) :
    (b.advance i).1.walkers[i]? = some (w.next b.session).walker := by
  obtain ⟨hi, -⟩ := List.getElem?_eq_some_iff.1 hw
  rw [advance_eq hw]
  exact List.getElem?_set_self hi

/-- A walker that is done changes nothing. -/
theorem advance_done (hw : b.walkers[i]? = some .done) : b.advance i = (b, .exhausted) := by
  obtain ⟨hi, hget⟩ := List.getElem?_eq_some_iff.1 hw
  have hset : b.walkers.set i .done = b.walkers := by
    rw [← hget]
    exact List.set_getElem_self hi
  rw [advance_eq hw]
  show ({ b with walkers := b.walkers.set i .done }, Outcome.exhausted) = _
  rw [hset]

/-- The other actions leave a walker where it is. -/
theorem act_walkers (ha : a ≠ .advance i) (h : b.act n sink a = some (b', o))
    (hw : b.walkers[i]? = some w) : b'.walkers[i]? = some w := by
  cases a with
  | step =>
    have hstep : b.step = (b', o) := Option.some.inj h
    rw [step] at hstep
    split at hstep
    · cases hstep; exact hw
    · cases hstep; exact hw
  | run =>
    obtain ⟨report, -, hr⟩ := Option.map_eq_some_iff.1 h
    cases hr
    exact hw
  | openWalker =>
    cases h
    rw [List.getElem?_append_left (List.getElem?_eq_some_iff.1 hw).1]
    exact hw
  | advance j =>
    have hij : j ≠ i := fun hj => ha (congrArg _ hj)
    have hadvance : b.advance j = (b', o) := Option.some.inj h
    rw [advance] at hadvance
    split at hadvance
    · cases hadvance
      exact hw
    · cases hadvance
      rw [List.getElem?_set_ne hij]
      exact hw
  | look => cases h; exact hw
  | canStep => cases h; exact hw
  | display => cases h; exact hw
  | take k => cases h; exact hw
  | setProgram t => cases h; exact hw
  | setLimit limit => cases h; exact hw

/-- No action takes a step back, not even one that changes the program. -/
theorem act_taken_le (h : b.act n sink a = some (b', o)) :
    b.session.taken ≤ b'.session.taken := by
  cases ha : a.keepsProgram with
  | true => exact (act_shows ha h).1.taken_le
  | false =>
    cases a with
    | setProgram t => cases h; exact Nat.le_refl _
    | _ => cases ha

/-- What has been done with a bench: the actions with their outcomes, oldest first. -/
inductive Logs (sink : Sink σ) (b : Bench σ) : List (Action × Outcome) → Bench σ → Prop
  | nil : Logs sink b [] b
  | snoc {log : List (Action × Outcome)} {b' b'' : Bench σ} {a : Action} {n : Nat}
      {o : Outcome} : Logs sink b log b' → b'.act n sink a = some (b'', o) →
      Logs sink b (log ++ [(a, o)]) b''

/-- What the walker of a number has told. -/
def heard (i : Nat) (log : List (Action × Outcome)) : List Outcome :=
  (log.filter fun p => p.1 = .advance i).map Prod.snd

theorem heard_snoc (i : Nat) (log : List (Action × Outcome)) (a : Action) (o : Outcome) :
    heard i (log ++ [(a, o)]) = if a = .advance i then heard i log ++ [o] else heard i log := by
  simp only [heard, List.filter_append, List.map_append]
  split <;> simp_all

/-- **Whatever is done with a session**, a walker that was opened on it owes to what it has
told. -/
theorem Logs.owes (h : Logs sink b log b') (hw : b.walkers[i]? = some .fresh) :
    ∃ w, b'.walkers[i]? = some w ∧ w.Owes b'.session (heard i log) := by
  induction h with
  | nil => exact ⟨.fresh, hw, .nil _⟩
  | @snoc log b' b'' a n o _ hact ih =>
    obtain ⟨w, hw, howes⟩ := ih
    rw [heard_snoc]
    split
    · rename_i ha
      subst ha
      have hadvance : b'.advance i = (b'', o) := Option.some.inj hact
      have hwalkers := advance_walkers hw
      rw [hadvance] at hwalkers
      refine ⟨_, hwalkers, ?_⟩
      rw [advance_eq hw] at hadvance
      cases hadvance
      exact howes.next (Walker.next_shown w b'.session)
    · rename_i ha
      exact ⟨w, act_walkers ha hact hw, howes.mono (act_taken_le hact)⟩

/-- The walker of a number tells the outcomes, and nothing else that is done meanwhile
touches the session. -/
inductive Alone (sink : Sink σ) (i : Nat) : Bench σ → List Outcome → Bench σ → Prop
  | nil {b : Bench σ} : Alone sink i b [] b
  | advance {b b' : Bench σ} {os : List Outcome} : Alone sink i (b.advance i).1 os b' →
      Alone sink i b ((b.advance i).2 :: os) b'
  | other {b b' b'' : Bench σ} {a : Action} {n : Nat} {o : Outcome} {os : List Outcome} :
      a ≠ .advance i → b.act n sink a = some (b', o) → b'.session = b.session →
      Alone sink i b' os b'' → Alone sink i b os b''

theorem Alone.tour (h : Alone sink i b os b') (hw : b.walkers[i]? = some w) :
    w.tour os.length b.session = (os, b'.session) := by
  induction h generalizing w with
  | nil => rfl
  | advance _ ih =>
    have hrest := ih (advance_walkers hw)
    rw [advance_eq hw] at hrest ⊢
    rw [List.length_cons, Walker.tour_succ _ rfl, hrest]
  | other ha hact hm _ ih =>
    rw [← hm]
    exact ih (act_walkers ha hact hw)

/-- **A walker keeps to its protocol whatever else is done.** Open a walker on any bench,
do anything at all with the bench, programs and limits put in from outside included, and
then advance the walker. It tells the entry of the session as it is now, with a higher
number than every entry it has told before, or the fault that has stopped it, or that it is
exhausted. For this the session has taken at most one step, and none the first time. The
walker is exhausted exactly if it has told a program without a step left or a fault before,
and then nothing changes any more; so it tells at most one of these.

If from its first showing on nothing else touches the session, the walker tells the entries
that a run without a limit offers from there, then the fault if the run fails with one, and
the session ends up as the run leaves it. If the run would go on for ever, so does the
walker, along the states that follow. -/
theorem walker_protocol (hopen : b.act n sink .openWalker = some (b', .opened i))
    (hlog : Logs sink b' log b₁) :
    (((b₁.advance i).2 = .entry (b₁.advance i).1.session.entry ∧
        ∀ e, .entry e ∈ heard i log → e.index < (b₁.advance i).1.session.entry.index) ∨
      (∃ f, (b₁.advance i).2 = .stopped (.fault f) ∧
        ((b₁.advance i).1.session.canStep = .error f ∨ b₁.session.step = .error f)) ∨
      (b₁.advance i).2 = .exhausted) ∧
    ((b₁.advance i).1.session = b₁.session ∨
      b₁.session.step = .ok (b₁.advance i).1.session) ∧
    (heard i log = [] → (b₁.advance i).1.session = b₁.session) ∧
    ((∃ o ∈ heard i log, o.IsLast) ↔ (b₁.advance i).2 = .exhausted) ∧
    ((b₁.advance i).2 = .exhausted → (b₁.advance i).1 = b₁) ∧
    (heard i log = [] → ∀ os b₂, Alone sink i b₁ os b₂ →
      (∀ fuel report, (b₁.session.under none).run fuel Sink.silent () = some report →
        ∃ es, (b₁.session.under none).Offers report.result report.session es none ∧
          os = Session.firsts os.length (es.map .entry ++ Session.closing report.result) ∧
          ((es.map Outcome.entry ++ Session.closing report.result).length ≤ os.length →
            b₂.session.entry = report.session.entry)) ∧
      ((b₁.session.under none).Endless →
        ∃ es, b₁.session.Records os.length es ∧ os = es.map .entry)) := by
  have hfresh : b'.walkers[i]? = some .fresh := by
    cases hopen
    exact List.getElem?_concat_length
  obtain ⟨w, hw, howes⟩ := hlog.owes hfresh
  have hshown := Walker.next_shown w b₁.session
  have hadvance := advance_eq hw
  refine ⟨?_, ?_, ?_, ?_, ?_, ?_⟩
  · rw [hadvance]
    rcases hshown.outcome with hentry | hfault | hexhausted
    · exact .inl ⟨hentry, fun e => howes.index_lt hshown hentry⟩
    · exact .inr (.inl hfault)
    · exact .inr (.inr hexhausted)
  · rw [hadvance]
    exact hshown.session
  · intro hnone
    rw [hadvance]
    rw [howes.fresh.2 hnone] at hshown ⊢
    exact hshown.session_of_fresh
  · rw [← howes.done, hadvance]
    exact hshown.exhausted_iff.symm
  · intro hexhausted
    rw [hadvance] at hexhausted
    obtain rfl : w = .done := hshown.exhausted_iff.1 hexhausted
    rw [advance_done hw]
  · intro hnone os b₂ halone
    obtain rfl : w = .fresh := howes.fresh.2 hnone
    have htour := halone.tour hw
    constructor
    · intro fuel report hrun
      obtain ⟨es, hoffers, hos, hentry⟩ := Session.tour_of_run hrun os.length
      rw [htour] at hos hentry
      exact ⟨es, hoffers, hos, hentry⟩
    · intro hendless
      obtain ⟨es, hes, hos⟩ := Session.tour_of_endless hendless os.length
      rw [htour] at hos
      exact ⟨es, hes, hos⟩

/-- A walker on an assignment of a sum. Once it has told the last program, after another
action in between, it is exhausted; and what it tells alone is what a run offers. -/
theorem walker_protocol_assignment :
    let m : Session := ⟨⟨.assign "x" (.binary .add (.num 1) (.num 2)), ∅⟩, 0, none⟩
    let b : Bench Unit := ⟨m, (), [.fresh], []⟩
    let b₁ := (b.advance 0).1.step.1
    let b₂ := (b₁.advance 0).1
    let log := [(.advance 0, .entry m.entry), (.step, .entry b₁.session.entry),
      (.advance 0, .entry b₂.session.entry)]
    (ofSession m ()).act 0 Sink.silent .openWalker = some (b, .opened 0) ∧
      Logs Sink.silent b log b₂ ∧ (∃ o ∈ heard 0 log, o.IsLast) ∧
      b₂.advance 0 = (b₂, .exhausted) ∧
      ∃ report es, m.run 9 Sink.silent () = some report ∧
        m.Offers report.result report.session es none ∧
        [(b.advance 0).2, ((b.advance 0).1.advance 0).2] =
          Session.firsts 2 (es.map .entry ++ Session.closing report.result) := by
  intro m b b₁ b₂ log
  have hopen : (ofSession m ()).act 0 Sink.silent .openWalker = some (b, .opened 0) := rfl
  have hlog : Logs Sink.silent b log b₂ :=
    .snoc (n := 0) (.snoc (n := 0) (.snoc (n := 0) .nil rfl) rfl) rfl
  have htold : ∃ o ∈ heard 0 log, o.IsLast :=
    ⟨.entry b₂.session.entry, .tail _ (.head _), rfl⟩
  obtain ⟨-, -, -, hlast, hsame, -⟩ := walker_protocol hopen hlog
  have hexhausted := hlast.1 htold
  obtain ⟨report, hrun⟩ : ∃ report, m.run 9 Sink.silent () = some report :=
    Option.isSome_iff_exists.1 (by decide +kernel)
  obtain ⟨-, -, -, -, -, hsolo⟩ := walker_protocol hopen .nil
  obtain ⟨hends, -⟩ := hsolo rfl _ _ (.advance (.advance .nil))
  obtain ⟨es, hoffers, hos, -⟩ := hends 9 report hrun
  exact ⟨hopen, hlog, htold, Prod.ext (hsame hexhausted) hexhausted, report, es, hrun, hoffers, hos⟩

end Bench

end Stepwise
