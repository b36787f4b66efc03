import Stepwise.Proofs.Session.Congruence

/-!
# The run of a sequence

A sequence runs its first half in its own place, with the second half waiting behind every
program on the way (`after_followedBy`), whatever shape these programs take. When the first
half has come to its end, one more step leaves the second half alone in the store as it is
then (`after_seq_finished`). A first half that fails or never ends is all that the sequence
ever runs (`after_seq_unfinished`). Which half a sequence in the middle belongs to makes no
difference (`after_seq_assoc`, `meets_seq_assoc`).

`Composed` says this of a sequence. Main statement: `seq_composed`.
-/

namespace Stepwise

open Term

/-! ## States with a second half waiting -/

namespace State

variable {st st' : State} {b : Term} {f : Fault} {i k : Nat}

/-- A statement steps in front of a second half as it does alone. -/
theorem step_followedBy (b : Term) (hs : st.program.isStatement = true)
    (hne : st.program ≠ skip) : (st.followedBy b).step = st.step.map (followedBy b) :=
  step_seq hs hne

/-- What steps is not the empty statement. -/
theorem ne_skip_of_step (h : st.step = .ok st') : st.program ≠ skip := by
  intro hs
  have hc := canStep_of_step h
  rw [hs] at hc
  cases hc

/-- As long as the programs on the way are statements, they run in front of a second half as
they do alone. -/
theorem after_followedBy (b : Term)
    (hs : ∀ i < k, ∀ st', after i st = .ok st' → st'.program.isStatement = true)
    (h : after k st = .ok st') : after k (st.followedBy b) = .ok (st'.followedBy b) := by
  induction k generalizing st with
  | zero => cases h; rfl
  | succ k ih =>
    cases hst : st.step with
    | error f =>
      rw [after_succ_of_error hst] at h
      cases h
    | ok st₁ =>
      rw [after_succ_of_step hst] at h
      have hstep : (st.followedBy b).step = .ok (st₁.followedBy b) := by
        rw [step_followedBy b (hs 0 (Nat.succ_pos k) st rfl) (ne_skip_of_step hst), hst]
        rfl
      rw [after_succ_of_step hstep]
      refine ih ?_ h
      intro i hi st₂ h₂
      exact hs (i + 1) (Nat.succ_lt_succ hi) st₂ ((after_succ_of_step hst).trans h₂)

/-- A run that comes to a state whose step fails never goes on. -/
theorem after_of_step_error (hik : i < k) (h : after i st = .ok st') (hf : st'.step = .error f) :
    after k st = .error f := by
  obtain ⟨n, rfl⟩ := Nat.exists_eq_add_of_lt hik
  rw [Nat.add_assoc, after_add, h]
  exact after_succ_of_error hf

end State

/-! ## The first half -/

section Halves

open State

variable {a b c t : Term} {s s' : Store} {st : State} {f : Fault} {k n : Nat}

theorem isStatement_after (ha : ProperStatement a) (h : after k ⟨a, s⟩ = .ok st) :
    st.program.isStatement = true :=
  (Session.proper_after ha h).isStatement

/-- While the first half runs, the second half waits. -/
theorem after_seq (ha : ProperStatement a) (b : Term) (h : after k ⟨a, s⟩ = .ok st) :
    after k ⟨seq a b, s⟩ = .ok (st.followedBy b) :=
  after_followedBy b (fun _ _ _ hi => isStatement_after ha hi) h

/-- A step of the first half that fails is a step of the sequence that fails. -/
theorem step_seq_error (ha : ProperStatement a) (b : Term) (h : after k ⟨a, s⟩ = .ok st)
    (hne : st.program ≠ skip) (hf : st.step = .error f) : (st.followedBy b).step = .error f := by
  rw [step_followedBy b (isStatement_after ha h) hne, hf]
  rfl

/-- With its first half at an end, a sequence becomes its second half in one step. -/
theorem step_followedBy_skip (b : Term) (h : st.program = skip) :
    (st.followedBy b).step = .ok ⟨b, st.store⟩ := by
  rw [followedBy, h]
  rfl

/-- From the end of the first half on, the run is one of the second half. -/
theorem after_seq_finished (ha : ProperStatement a) (b : Term)
    (h : after n ⟨a, s⟩ = .ok ⟨skip, s'⟩) (k : Nat) :
    after (n + 1 + k) ⟨seq a b, s⟩ = after k ⟨b, s'⟩ := by
  have hn : after (n + 1) ⟨seq a b, s⟩ = .ok ⟨b, s'⟩ :=
    (after_succ_last (after_seq ha b h)).trans (step_followedBy_skip b rfl)
  rw [after_add, hn]
  rfl

/-- A run that goes along with that of `a` in the place `K`, and fails where it fails, does so
for ever if that never comes to its end. -/
theorem after_map_of_unfinished {K : State → State}
    (hrun : ∀ k st, after k ⟨a, s⟩ = .ok st → after k ⟨t, s⟩ = .ok (K st))
    (hfail : ∀ k st f, after k ⟨a, s⟩ = .ok st → st.program ≠ skip → st.step = .error f →
      (K st).step = .error f)
    (h : ∀ n s', after n ⟨a, s⟩ ≠ .ok ⟨skip, s'⟩) (k : Nat) :
    after k ⟨t, s⟩ = (after k ⟨a, s⟩).map K := by
  cases hk : after k ⟨a, s⟩ with
  | ok st => exact hrun k st hk
  | error f =>
    obtain ⟨i, st, hik, hi, hf⟩ := step_of_after_error hk
    have hne : st.program ≠ skip := fun hs => h i st.store (by rw [hi, ← hs])
    exact after_of_step_error hik (hrun i st hi) (hfail i st f hi hne hf)

/-- If the first half never comes to its end, its own run is all there is. -/
theorem after_seq_unfinished (ha : ProperStatement a) (b : Term)
    (h : ∀ n s', after n ⟨a, s⟩ ≠ .ok ⟨skip, s'⟩) (k : Nat) :
    after k ⟨seq a b, s⟩ = (after k ⟨a, s⟩).map (followedBy b) :=
  after_map_of_unfinished (fun _ _ => after_seq ha b) (fun _ _ _ => step_seq_error ha b) h k

/-! ## Three statements in a row -/

/-- The first of three statements runs in front of both others. -/
theorem after_seq_seq (ha : ProperStatement a) (b c : Term) (h : after k ⟨a, s⟩ = .ok st) :
    after k ⟨seq (seq a b) c, s⟩ = .ok ((st.followedBy b).followedBy c) := by
  refine after_followedBy c ?_ (after_seq ha b h)
  intro i hi st₁ h₁
  obtain ⟨st₂, h₂, -⟩ := after_of_le (Nat.le_of_lt hi) h
  rw [after_seq ha b h₂] at h₁
  cases h₁
  rfl

/-- When the first of three statements has come to its end, it no longer shows how they were
grouped. -/
theorem after_seq_seq_finished (ha : ProperStatement a) (b c : Term)
    (h : after n ⟨a, s⟩ = .ok ⟨skip, s'⟩) (k : Nat) :
    after (n + 1 + k) ⟨seq (seq a b) c, s⟩ = after k ⟨seq b c, s'⟩ := by
  have hn : after (n + 1) ⟨seq (seq a b) c, s⟩ = .ok ⟨seq b c, s'⟩ :=
    (after_succ_last (after_seq_seq ha b c h)).trans rfl
  rw [after_add, hn]
  rfl

/-- If the first of three statements never comes to its end, its own run is all there is. -/
theorem after_seq_seq_unfinished (ha : ProperStatement a) (b c : Term)
    (h : ∀ n s', after n ⟨a, s⟩ ≠ .ok ⟨skip, s'⟩) (k : Nat) :
    after k ⟨seq (seq a b) c, s⟩ =
      (after k ⟨a, s⟩).map fun st => (st.followedBy b).followedBy c := by
  refine after_map_of_unfinished (fun _ _ => after_seq_seq ha b c) ?_ h k
  intro i st f hi hne hf
  rw [step_followedBy c rfl (fun hs => by cases hs), step_seq_error ha b hi hne hf]
  rfl

/-- **Grouping makes no difference to the store**, at any number of steps. -/
theorem after_seq_assoc (ha : ProperStatement a) (b c : Term) (s : Store) (k : Nat) :
    (after k ⟨seq (seq a b) c, s⟩).map store = (after k ⟨seq a (seq b c), s⟩).map store := by
  by_cases hfin : ∃ n s', after n ⟨a, s⟩ = .ok ⟨skip, s'⟩
  · obtain ⟨n, s', hn⟩ := hfin
    rcases Nat.lt_or_ge n k with hnk | hkn
    · obtain ⟨j, rfl⟩ := Nat.exists_eq_add_of_le hnk
      rw [after_seq_seq_finished ha b c hn, after_seq_finished ha (seq b c) hn]
    · obtain ⟨st, hk, -⟩ := after_of_le hkn hn
      rw [after_seq_seq ha b c hk, after_seq ha (seq b c) hk]
      rfl
  · have hun : ∀ n s', after n ⟨a, s⟩ ≠ .ok ⟨skip, s'⟩ := fun n s' h => hfin ⟨n, s', h⟩
    rw [after_seq_seq_unfinished ha b c hun, after_seq_unfinished ha (seq b c) hun]
    cases after k ⟨a, s⟩ <;> rfl

end Halves

/-! ## Histories of a sequence -/

/-- The entry of a program with a second half waiting. -/
def Entry.followedBy (b : Term) (e : Entry) : Entry := { e with state := e.state.followedBy b }

/-- The entry with a number higher by `n`. -/
def Entry.later (n : Nat) (e : Entry) : Entry := { e with index := e.index + n }

/-- The history of a first half, with the second half `b` waiting, and then that of the
second half. -/
def History.andThen (b : Term) (h h' : History) : History :=
  ⟨h.entries.map (Entry.followedBy b) ++ h'.entries.map (Entry.later h.size)⟩

namespace Session

variable {a b c t u : Term} {s s₁ s' : Store} {st : State} {f : Fault} {j k n : Nat}
  {es es' : List Entry} {h : History} {m m' : Session} {e : Ending} {r : Except Stop History}
  {o : Fate} {K : State → State}

theorem Records.followedBy (ha : ProperStatement a) (b : Term)
    (hes : (begin a s none).Records n es) :
    (begin (seq a b) s none).Records n (es.map (Entry.followedBy b)) := by
  refine ⟨by rw [List.length_map, hes.1], ?_⟩
  intro i e he
  rw [List.getElem?_map, Option.map_eq_some_iff] at he
  obtain ⟨e₁, he₁, rfl⟩ := he
  obtain ⟨hindex, hafter⟩ := hes.2 i e₁ he₁
  exact ⟨hindex, after_seq ha b hafter⟩

/-- What is recorded from a later state on, under its own numbers, comes behind what is
recorded until then. -/
theorem Records.append (hes : (begin t s none).Records k es)
    (hk : State.after k ⟨t, s⟩ = .ok ⟨u, s₁⟩) (hes' : (begin u s₁ none).Records n es') :
    (begin t s none).Records (k + n) (es ++ es'.map (Entry.later k)) := by
  refine ⟨by rw [List.length_append, List.length_map, hes.1, hes'.1], ?_⟩
  intro i e he
  rcases Nat.lt_or_ge i k with hik | hki
  · rw [List.getElem?_append_left (by rw [hes.1]; exact hik)] at he
    exact hes.2 i e he
  · obtain ⟨j, rfl⟩ := Nat.exists_eq_add_of_le hki
    rw [List.getElem?_append_right (by rw [hes.1]; exact hki), hes.1, Nat.add_sub_cancel_left,
      List.getElem?_map, Option.map_eq_some_iff] at he
    obtain ⟨e₁, he₁, rfl⟩ := he
    obtain ⟨hindex, hafter⟩ := hes'.2 j e₁ he₁
    refine ⟨?_, State.after_trans hk hafter⟩
    simp only [Entry.later, hindex, begin, Nat.zero_add]
    omega

/-! ## From a later state on -/

/-- The exit of a run from a later state is the exit of the whole run. -/
theorem Exits.of_later (hes : (begin t s none).Records k es)
    (hk : State.after k ⟨t, s⟩ = .ok ⟨u, s₁⟩) (hx : (begin u s₁ none).Exits j st e r) :
    (begin t s none).Exits (k + j) st e
      (r.map fun h => ⟨es ++ h.entries.map (Entry.later k)⟩) := by
  have ha : State.after (k + j) ⟨t, s⟩ = .ok st := State.after_trans hk hx.after
  cases hx with
  | finished _ hc _ hes' => exact .finished ha hc nofun (hes.append hk hes')
  | stuck _ hc hf _ => exact .stuck ha hc hf nofun
  | strayed _ hv _ => exact .strayed ha hv nofun
  | spent hn _ _ _ => cases hn

theorem Endless.of_later (hk : State.after k ⟨t, s⟩ = .ok ⟨u, s₁⟩)
    (h : (begin u s₁ none).Endless) : (begin t s none).Endless := by
  obtain ⟨-, hsteps⟩ := endless_iff.1 h
  refine endless_iff.2 ⟨rfl, fun j => ?_⟩
  rcases Nat.lt_or_ge j k with hjk | hkj
  · obtain ⟨st, ha, -⟩ := State.after_of_le (Nat.le_of_lt hjk) hk
    obtain ⟨st', hs⟩ := State.step_of_after_lt hjk ha hk
    exact ⟨st, ha, State.canStep_of_step hs⟩
  · obtain ⟨i, rfl⟩ := Nat.exists_eq_add_of_le hkj
    obtain ⟨st, ha, hc⟩ := hsteps i
    exact ⟨st, State.after_trans hk ha, hc⟩

/-- Every program has a fate, proper or not. -/
theorem exists_meets (t : Term) (s : Store) : ∃ o, Meets t s o := by
  by_cases hend : (begin t s none).Endless
  · exact ⟨.endless, hend⟩
  · rw [endless_iff_not_exits] at hend
    obtain ⟨j, st, e, r, hx⟩ := Classical.not_not.1 hend
    have hends : (begin t s none).Ends r ((begin t s none).moved j st) :=
      ends_iff_exits.2 ⟨j, st, e, hx, rfl⟩
    cases hx with
    | @finished _ _ es _ _ _ _ => exact ⟨.finishes st.store, ⟨es⟩, _, hends, rfl⟩
    | stuck _ _ _ _ => exact ⟨.fails _, _, hends⟩
    | strayed _ _ _ => exact ⟨.fails _, _, hends⟩
    | spent hn _ _ _ => cases hn

theorem Meets.of_later (hk : State.after k ⟨t, s⟩ = .ok ⟨u, s₁⟩) (h : Meets u s₁ o) :
    Meets t s o := by
  -- The run up to the later state is recorded without that state, which the rest begins with.
  have hes : ∃ es, (begin t s none).Records k es := by
    cases k with
    | zero => exact ⟨[], .nil _⟩
    | succ k =>
      obtain ⟨st, ha, -⟩ := State.after_of_le (Nat.le_succ k) hk
      exact Records.of_after (m := begin t s none) ha
  obtain ⟨es, hes⟩ := hes
  cases o with
  | finishes s' =>
    obtain ⟨h, m', hends, rfl⟩ := h
    obtain ⟨j, st, e, hx, rfl⟩ := ends_iff_exits.1 hends
    exact ⟨_, _, ends_iff_exits.2 ⟨_, _, _, hx.of_later hes hk, rfl⟩, rfl⟩
  | fails f =>
    obtain ⟨m', hends⟩ := h
    obtain ⟨j, st, e, hx, rfl⟩ := ends_iff_exits.1 hends
    exact ⟨_, ends_iff_exits.2 ⟨_, _, _, hx.of_later hes hk, rfl⟩⟩
  | endless => exact Endless.of_later hk h

/-- A program has the fate of every state on its way. -/
theorem meets_later (hk : State.after k ⟨t, s⟩ = .ok ⟨u, s₁⟩) : Meets t s o ↔ Meets u s₁ o := by
  refine ⟨fun h => ?_, Meets.of_later hk⟩
  obtain ⟨o', ho'⟩ := exists_meets u s₁
  rw [h.unique (ho'.of_later hk)]
  exact ho'

/-! ## A run in another's place -/

/-- The run of `t` is that of `a` in the place `K`, where there is always a step left. -/
def RunsIn (K : State → State) (a t : Term) (s : Store) : Prop :=
  (∀ st, (K st).program.canStep = .ok true) ∧
    ∀ k, State.after k ⟨t, s⟩ = (State.after k ⟨a, s⟩).map K

theorem RunsIn.stuck (h : RunsIn K a t s) (hx : (begin a s none).Exits j st (.stuck f) r) :
    (begin t s none).Exits j (K st) (.stuck f) (.error (.fault f)) := by
  obtain ⟨hK, hafter⟩ := h
  cases hx with
  | stuck ha _ hf _ =>
    have ht : State.after j ⟨t, s⟩ = .ok (K st) :=
      (hafter j).trans (congrArg (Except.map K) ha)
    have hnext : State.after (j + 1) ⟨t, s⟩ = .error f :=
      (hafter (j + 1)).trans (congrArg (Except.map K) ((State.after_succ_last ha).trans hf))
    exact .stuck ht (hK st) ((State.after_succ_last ht).symm.trans hnext) nofun

theorem RunsIn.endless (h : RunsIn K a t s) (hend : (begin a s none).Endless) :
    (begin t s none).Endless := by
  obtain ⟨hK, hafter⟩ := h
  obtain ⟨-, hsteps⟩ := endless_iff.1 hend
  refine endless_iff.2 ⟨rfl, fun k => ?_⟩
  obtain ⟨st, ha, -⟩ := hsteps k
  exact ⟨K st, (hafter k).trans (congrArg (Except.map K) ha), hK st⟩

/-- A proper statement that fails is stuck. -/
theorem stuck_of_ends (ha : ProperStatement a)
    (hends : (begin a s none).Ends (.error (.fault f)) m) :
    ∃ j st, (begin a s none).Exits j st (.stuck f) (.error (.fault f)) ∧
      m = (begin a s none).moved j st := by
  obtain ⟨j, st, e, hx, rfl⟩ := ends_iff_exits.1 hends
  rcases proper_exits ha hx with ⟨s', es, -, -, hr⟩ | ⟨f', rfl, hr⟩
  · cases hr
  · cases hr
    exact ⟨j, st, hx, rfl⟩

/-- Of a proper statement that does not come to its end, the run in its place has the fate. -/
theorem RunsIn.meets (h : RunsIn K a t s) (ha : ProperStatement a)
    (hun : ∀ s', ¬ Meets a s (.finishes s')) (ho : Meets a s o) : Meets t s o := by
  cases o with
  | finishes s' => exact absurd ho (hun s')
  | fails f =>
    obtain ⟨m, hends⟩ := ho
    obtain ⟨j, st, hx, -⟩ := stuck_of_ends ha hends
    exact ⟨_, ends_iff_exits.2 ⟨j, _, _, h.stuck hx, rfl⟩⟩
  | endless => exact h.endless ho

/-! ## The end of the first half -/

/-- A first half that comes to its end is at the empty statement, and its history shows every
state up to that. -/
theorem after_of_ends (ha : ProperStatement a) (hends : (begin a s none).Ends (.ok h) m) :
    ∃ n s', State.after n ⟨a, s⟩ = .ok ⟨skip, s'⟩ ∧ (begin a s none).Records (n + 1) h.entries ∧
      m.state.store = s' := by
  obtain ⟨n, st, e, hx, rfl⟩ := ends_iff_exits.1 hends
  rcases proper_exits ha hx with ⟨s', es, rfl, rfl, hr⟩ | ⟨f, -, hr⟩
  · cases hr
    exact ⟨n, s', hx.after, hx.records, rfl⟩
  · cases hr

theorem meets_finishes_iff (ha : ProperStatement a) :
    Meets a s (.finishes s') ↔ ∃ n, State.after n ⟨a, s⟩ = .ok ⟨skip, s'⟩ := by
  rw [finishes_iff ha]
  refine exists_congr fun n => ?_
  rw [runs_iff_after ha]
  constructor
  · rintro ⟨st, h, rfl⟩
    exact h
  · exact fun h => ⟨_, h, rfl⟩

theorem not_after_skip (ha : ProperStatement a) (h : ∀ s', ¬ Meets a s (.finishes s')) (n : Nat)
    (s' : Store) : State.after n ⟨a, s⟩ ≠ .ok ⟨skip, s'⟩ :=
  fun hn => h s' ((meets_finishes_iff ha).2 ⟨n, hn⟩)

/-- If the first half never comes to its end, a sequence does what it does. -/
theorem runsIn_seq (ha : ProperStatement a) (b : Term) (h : ∀ s', ¬ Meets a s (.finishes s')) :
    RunsIn (State.followedBy b) a (seq a b) s :=
  ⟨fun _ => rfl, after_seq_unfinished ha b (not_after_skip ha h)⟩

theorem runsIn_seq_seq (ha : ProperStatement a) (b c : Term)
    (h : ∀ s', ¬ Meets a s (.finishes s')) :
    RunsIn (fun st => (st.followedBy b).followedBy c) a (seq (seq a b) c) s :=
  ⟨fun _ => rfl, after_seq_seq_unfinished ha b c (not_after_skip ha h)⟩

/-! ## Sequences -/

/-- The run of the sequence of `a` and `b` from the store `s` is composed of those of its
halves. -/
structure Composed (a b : Term) (s : Store) : Prop where
  /-- A session takes a sequence, whatever its halves are. -/
  starts : ∀ draft : Draft, draft.check = .ok s →
    Session.start (seq a b) draft none = .ok (begin (seq a b) s none)
  /-- As long as the first half runs, the second half waits. -/
  waits : ∀ k st, State.after k ⟨a, s⟩ = .ok st →
    State.after k ⟨seq a b, s⟩ = .ok (st.followedBy b)
  /-- Where the next step of the first half fails, so does the next step of the sequence. -/
  fails : ∀ k st f, State.after k ⟨a, s⟩ = .ok st → st.program.canStep = .ok true →
    ((begin a s none).moved k st).step = .error f →
    ((begin (seq a b) s none).moved k (st.followedBy b)).step = .error f
  /-- Where the first half is at its end, the next step leaves the second half alone. -/
  goesOn : ∀ k s', State.after k ⟨a, s⟩ = .ok ⟨skip, s'⟩ →
    State.after (k + 1) ⟨seq a b, s⟩ = .ok ⟨b, s'⟩
  /-- What the first half records, the sequence records with the second half behind it. -/
  records : ∀ n es, (begin a s none).Records n es →
    (begin (seq a b) s none).Records n (es.map (Entry.followedBy b))
  /-- If the first half comes to its end and then the second half has a result, that is the
  result of the sequence, and a history is that of the first half and then the second. -/
  ends : ∀ h m r m', (begin a s none).Ends (.ok h) m →
    (begin b m.state.store none).Ends r m' →
    (begin (seq a b) s none).Ends (r.map (History.andThen b h))
      ((begin (seq a b) s none).moved (h.size + m'.taken) m'.state)
  /-- If the second half is endless after the first, so is the sequence. -/
  endless : ∀ h m, (begin a s none).Ends (.ok h) m →
    (begin b m.state.store none).Endless → (begin (seq a b) s none).Endless
  /-- If the first half fails, the sequence fails there. -/
  stuck : ∀ f m, (begin a s none).Ends (.error (.fault f)) m →
    (begin (seq a b) s none).Ends (.error (.fault f))
      ((begin (seq a b) s none).moved m.taken (m.state.followedBy b))
  /-- If the first half is endless, so is the sequence. -/
  endlessly : (begin a s none).Endless → (begin (seq a b) s none).Endless
  /-- Unless the first half comes to its end, the second half waits for ever. -/
  neverStarts : (∀ s', ¬ Meets a s (.finishes s')) → ∀ k,
    State.after k ⟨seq a b, s⟩ = (State.after k ⟨a, s⟩).map (State.followedBy b)

/-- A second half ends after a first half as it does alone. -/
theorem ends_seq (ha : ProperStatement a) (hends : (begin a s none).Ends (.ok h) m)
    (hends' : (begin b m.state.store none).Ends r m') :
    (begin (seq a b) s none).Ends (r.map (History.andThen b h))
      ((begin (seq a b) s none).moved (h.size + m'.taken) m'.state) := by
  obtain ⟨n, s', hn, hes, rfl⟩ := after_of_ends ha hends
  obtain ⟨j, st, e, hx, rfl⟩ := ends_iff_exits.1 hends'
  have hb : State.after (n + 1) ⟨seq a b, s⟩ = .ok ⟨b, m.state.store⟩ :=
    after_seq_finished ha b hn 0
  have hsize : h.size = n + 1 := hes.1
  have hexit := Exits.of_later (hes.followedBy ha b) hb hx
  rw [← hsize] at hexit
  refine ends_iff_exits.2 ⟨h.size + j, st, e, hexit, ?_⟩
  simp only [moved, begin, Nat.zero_add]

theorem stuck_seq (ha : ProperStatement a) (b : Term)
    (hends : (begin a s none).Ends (.error (.fault f)) m) :
    (begin (seq a b) s none).Ends (.error (.fault f))
      ((begin (seq a b) s none).moved m.taken (m.state.followedBy b)) := by
  have hfails : Meets a s (.fails f) := ⟨m, hends⟩
  have hun : ∀ s', ¬ Meets a s (.finishes s') := fun s' h => nomatch h.unique hfails
  obtain ⟨j, st, hx, rfl⟩ := stuck_of_ends ha hends
  refine ends_iff_exits.2 ⟨j, _, _, (runsIn_seq ha b hun).stuck hx, ?_⟩
  simp only [moved, begin, Nat.zero_add]

theorem endless_seq (ha : ProperStatement a) (b : Term) (hend : (begin a s none).Endless) :
    (begin (seq a b) s none).Endless := by
  have hendless : Meets a s .endless := hend
  have hun : ∀ s', ¬ Meets a s (.finishes s') := fun s' h => nomatch h.unique hendless
  exact (runsIn_seq ha b hun).endless hend

theorem composed (ha : ProperStatement a) (b : Term) (s : Store) : Composed a b s where
  starts := by
    intro draft hd
    have hc : (seq a b).canStep = .ok true := rfl
    simp only [start, negative?, hc, hd]
  waits _ _ hk := after_seq ha b hk
  fails := by
    intro k st f hk hc hf
    have hne : st.program ≠ skip := by
      intro hs
      rw [hs] at hc
      cases hc
    have hstep : st.step = .error f :=
      (step_eq_error_iff (m := (begin a s none).moved k st) hc).1 hf
    exact (step_eq_error_iff rfl).2 (step_seq_error ha b hk hne hstep)
  goesOn _ _ hk := after_seq_finished ha b hk 0
  records _ _ hes := hes.followedBy ha b
  ends _ _ _ _ hends hends' := ends_seq ha hends hends'
  endless := by
    intro h m hends hend
    obtain ⟨n, s', hn, -, rfl⟩ := after_of_ends ha hends
    exact Endless.of_later (after_seq_finished ha b hn 0) hend
  stuck _ _ hends := stuck_seq ha b hends
  endlessly hend := endless_seq ha b hend
  neverStarts hun := after_seq_unfinished ha b (not_after_skip ha hun)

/-- **Grouping makes no difference to the fate** of three statements in a row. -/
theorem meets_seq_assoc (ha : ProperStatement a) (b c : Term) (s : Store) (o : Fate) :
    Meets (seq (seq a b) c) s o ↔ Meets (seq a (seq b c)) s o := by
  by_cases hfin : ∃ s', Meets a s (.finishes s')
  · obtain ⟨s', hs'⟩ := hfin
    obtain ⟨n, hn⟩ := (meets_finishes_iff ha).1 hs'
    -- Either way the two last statements are left, in the store that the first has led to.
    have hl : State.after (n + 1) ⟨seq (seq a b) c, s⟩ = .ok ⟨seq b c, s'⟩ :=
      after_seq_seq_finished ha b c hn 0
    have hr : State.after (n + 1) ⟨seq a (seq b c), s⟩ = .ok ⟨seq b c, s'⟩ :=
      after_seq_finished ha (seq b c) hn 0
    rw [meets_later hl, meets_later hr]
  · have hun : ∀ s', ¬ Meets a s (.finishes s') := fun s' h => hfin ⟨s', h⟩
    obtain ⟨o', ho'⟩ := exists_fate ha s
    have hl : Meets (seq (seq a b) c) s o' := (runsIn_seq_seq ha b c hun).meets ha hun ho'
    have hr : Meets (seq a (seq b c)) s o' := (runsIn_seq ha (seq b c) hun).meets ha hun ho'
    exact ⟨fun h => h.unique hl ▸ hr, fun h => h.unique hr ▸ hl⟩

/-- **The run of a sequence is that of its first half and then that of its second half.** The
first half runs as it does alone, step by step, with the second half waiting behind it; the
second half begins one step after the first has come to its end, in the store as it is then,
and not at all if the first half fails or never ends. So it makes no difference how three
statements in a row are grouped: there is the same store after every number of steps, and the
same fate. -/
theorem seq_composed (ha : ProperStatement a) (b : Term) (s : Store) :
    Composed a b s ∧ ∀ c,
      (∀ k, (State.after k ⟨seq (seq a b) c, s⟩).map State.store =
        (State.after k ⟨seq a (seq b c), s⟩).map State.store) ∧
      ∀ o, Meets (seq (seq a b) c) s o ↔ Meets (seq a (seq b c)) s o :=
  ⟨composed ha b s, fun c => ⟨after_seq_assoc ha b c s, meets_seq_assoc ha b c s⟩⟩

/-- The loop that triples a variable goes round once and leaves what waits behind it, here a
copy of the variable and something that is no term, however the three are grouped. -/
theorem seq_composed_tripling :
    let s : Store := Table.ofList [("x", .num 3)]
    let copy : Term := assign "y" (var "x")
    ProperStatement Catalog.tripling ∧
      State.after 13 ⟨seq Catalog.tripling copy, s⟩ =
        .ok ⟨copy, Table.ofList [("x", .num 9)]⟩ ∧
      Meets (seq (seq Catalog.tripling copy) (stray .null)) s (.fails (.notTerm .null)) := by
  intro s copy
  have ha : ProperStatement Catalog.tripling :=
    .loop (.binary nofun (.var "x") (.num 5)) (.assign (.binary nofun (.var "x") (.num 3)))
  have hruns : Runs Catalog.tripling s 12 (.ok (Table.ofList [("x", .num 9)])) :=
    .loopAgain rfl (.assign (v := .num 9) rfl) (.loopDone rfl)
  obtain ⟨_, hend, rfl⟩ := (runs_iff_after ha).1 hruns
  obtain ⟨hcopy, hassoc⟩ := seq_composed ha copy s
  obtain ⟨hrest, -⟩ := seq_composed ha (seq copy (stray .null)) s
  refine ⟨ha, hcopy.goesOn 12 _ hend, ((hassoc (stray .null)).2 _).2 ?_⟩
  have hlast : Meets (seq copy (stray .null)) (Table.ofList [("x", .num 9)])
      (.fails (.notTerm .null)) :=
    ⟨_, ends_iff_exits.2 ⟨3, _, _, .strayed rfl rfl nofun, rfl⟩⟩
  exact (meets_later (hrest.goesOn 12 _ hend)).2 hlast

end Session

end Stepwise
