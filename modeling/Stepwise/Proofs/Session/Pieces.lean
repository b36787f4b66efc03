import Stepwise.Proofs.Session.Offers
import Mathlib.Algebra.Ring.Nat
import Mathlib.Data.List.Basic

/-!
# Runs in pieces

A run that has been ended by its limit, or by its sink, can be taken up again: the session
stands in the state that was recorded last, and the next run begins by recording that
state once more. So the pieces of a run, each without its last entry except the final one,
make up the run that nothing has interrupted (`run_resume`), whose limit is the sum of
theirs. A run that comes to its end within its limit is the same under every greater one
(`run_more`).

Main statement: `run_in_pieces`.
-/

namespace Stepwise.Session

variable {σ : Type} {sink : Sink σ} {m m' : Session} {st : State} {k n fuel : Nat} {tray : σ}
  {es : List Entry} {f : Fault}

/-! ## The limit and the states on the way -/

/-- The session with another limit. -/
def under (m : Session) (limit : Option Int) : Session := { m with limit }

@[simp] theorem entry_under (m : Session) (limit : Option Int) :
    (m.under limit).entry = m.entry := rfl

theorem step_under (limit : Option Int) (h : m.step = .ok m') :
    (m.under limit).step = .ok (m'.under limit) := by
  obtain ⟨st, hst, rfl⟩ := step_eq_ok_iff.1 h
  exact step_eq_ok_iff.2 ⟨st, hst, rfl⟩

theorem step_under_error (limit : Option Int) (hc : m.canStep = .ok true)
    (h : m.step = .error f) : (m.under limit).step = .error f :=
  (step_eq_error_iff (m := m.under limit) hc).2 ((step_eq_error_iff hc).1 h)

/-- The way does not depend on the limit. -/
theorem travel_under (sink : Sink σ) (n : Nat) (m : Session) (tray : σ) (limit : Option Int) :
    travel sink n (m.under limit) tray =
      { travel sink n m tray with session := (travel sink n m tray).session.under limit } := by
  fun_induction travel sink n m tray with
  | case1 _ m _ _ hc => exact travel_strayed (m := m.under limit) hc
  | case2 _ m _ _ hc _ _ hr => exact travel_refused (m := m.under limit) hc hr
  | case3 m _ _ hr hc => exact travel_spent (m := m.under limit) hc hr
  | case4 m _ _ hr _ _ hs hc =>
    exact travel_stuck (m := m.under limit) hc (step_under_error limit hc hs) hr
  | case5 m _ _ hr _ _ hs _ ih =>
    rw [travel_step (m := m.under limit) (step_under limit hs) hr, entry_under, ih]
    rfl
  | case6 _ m _ more hc _ hr hmore =>
    obtain rfl : more = false := by simpa using hmore
    exact travel_finished (m := m.under limit) hc hr

/-- A journey that has not spent its budget is the same with a greater one. -/
theorem travel_more (k : Nat) (h : (travel sink n m tray).ending ≠ .spent) :
    travel sink (n + k) m tray = travel sink n m tray := by
  fun_induction travel sink n m tray with
  | case1 _ _ _ _ hc => exact travel_strayed hc
  | case2 _ _ _ _ hc _ _ hr => exact travel_refused hc hr
  | case3 => exact absurd rfl h
  | case4 _ _ _ hr _ _ hs hc =>
    rw [Nat.succ_add]
    exact travel_stuck hc hs hr
  | case5 _ _ _ hr _ _ hs _ ih =>
    rw [Nat.succ_add, travel_step hs hr, ih h]
  | case6 _ _ _ more hc _ hr hmore =>
    obtain rfl : more = false := by simpa using hmore
    exact travel_finished hc hr

/-- A journey passes through every state on its way: from there on it is the journey of the
session in that state. -/
theorem travel_resume (n : Nat) (ha : State.after k m.state = .ok st) (hes : m.Records k es) :
    travel Sink.silent (k + n) m () =
      { travel Sink.silent n (m.moved k st) () with
        visited := es ++ (travel Sink.silent n (m.moved k st) ()).visited } := by
  induction k generalizing m es with
  | zero =>
    cases ha
    obtain rfl : es = [] := List.eq_nil_of_length_eq_zero hes.1
    rw [Nat.zero_add]
    rfl
  | succ k ih =>
    obtain ⟨st₁, h₁, ha₁⟩ := State.after_of_le (Nat.le_add_left 1 k) ha
    have hst : m.state.step = .ok st₁ := (State.after_one _).symm.trans h₁
    obtain ⟨rest, rfl, hrest⟩ := hes.uncons
    have hmoved : (m.moved 1 st₁).moved k st = m.moved (k + 1) st := by
      rw [moved_moved, Nat.add_comm]
    rw [Nat.succ_add, travel_step (step_eq_ok_iff.2 ⟨st₁, hst, rfl⟩)
      (Sink.silent_takes m.entry.texts ()), ← hmoved]
    have hrun := ih (m := m.moved 1 st₁) ha₁ (hrest st₁ hst)
    rw [show (Sink.silent.offer m.entry.texts ()).tray = () from rfl, hrun]
    rfl

/-! ## Taking up a run -/

/-- A result whose history has further entries before its own. A limit is reported as `n`. -/
def joined (n : Int) (es : List Entry) : Except Stop History → Except Stop History
  | .ok h => .ok ⟨es ++ h.entries⟩
  | .error (.limit _ h) => .error (.limit n ⟨es ++ h.entries⟩)
  | .error s => .error s

/-- **A run can be taken up on the way.** From the state after `k` steps it goes on as the
whole run does, which has recorded the states before as well and may take `k` more steps. -/
theorem run_resume (limit : Option Nat) (fuel : Nat) (ha : State.after k m.state = .ok st)
    (hes : m.Records k es) :
    ((m.under (limit.map fun n => ((k + n : Nat) : Int))).run (k + fuel) Sink.silent ()).map
        (fun p => (p.result, p.session.entry)) =
      (((m.moved k st).under (limit.map Int.ofNat)).run fuel Sink.silent ()).map
        fun p => (joined (k + limit.getD 0 : Nat) es p.result, p.session.entry) := by
  unfold run conclude
  rw [travel_under, travel_under]
  cases limit with
  | none =>
    simp only [under, budget, Option.map_none, travel_resume fuel ha hes, Option.map_map]
    cases (travel Sink.silent fuel (m.moved k st) ()).ending <;> rfl
  | some n =>
    simp only [under, budget, Option.map_some, Int.toNat_natCast, Int.ofNat_eq_natCast,
      travel_resume n ha hes, Option.map_map]
    cases (travel Sink.silent n (m.moved k st) ()).ending <;> rfl

/-- A run under a limit ends, in its limit or in some other way. -/
theorem run_under (m : Session) (n : Nat) :
    ∃ report, (m.under (some n)).run 0 Sink.silent () = some report ∧
      ((∃ st es, report.result = .error (.limit n ⟨es⟩) ∧ State.after n m.state = .ok st ∧
          m.Records (n + 1) es ∧ report.session = (m.moved n st).under (some n)) ∨
        ∀ n' h, report.result ≠ .error (.limit n' h)) := by
  rcases run_silent 0 (m.under (some n)) with ⟨report, j, st, e, hrun, hx, hm⟩ | ⟨-, hl, -⟩
  · refine ⟨report, hrun, ?_⟩
    generalize report.result = result at hx ⊢
    cases hx with
    | spent hn ha _ hes =>
      cases hn
      exact .inl ⟨st, _, rfl, ha, hes, hm⟩
    | _ => exact .inr nofun
  · cases hl

/-- A run that has not reached its limit is the same under a greater one. -/
theorem run_more {report : Report Unit} (k : Nat)
    (h : (m.under (some n)).run 0 Sink.silent () = some report)
    (hr : ∀ n' h, report.result ≠ .error (.limit n' h)) :
    ∃ report', (m.under (some (n + k : Nat))).run 0 Sink.silent () = some report' ∧
      report'.result = report.result ∧ report'.session.entry = report.session.entry := by
  unfold run conclude at h ⊢
  rw [travel_under] at h ⊢
  simp only [under, budget, Int.toNat_natCast] at h ⊢
  have hspent : (travel Sink.silent n m ()).ending ≠ .spent := by
    intro he
    rw [he] at h
    cases h
    exact hr _ _ rfl
  rw [travel_more k hspent]
  cases he : (travel Sink.silent n m ()).ending with
  | spent => exact absurd he hspent
  | _ =>
    rw [he] at h
    cases h
    exact ⟨_, rfl, rfl, rfl⟩

/-! ## Pieces -/

/-- What has come of a run in pieces. -/
structure Relay where
  /-- The histories of the pieces that reached their limits and were followed by another,
  oldest first. -/
  earlier : List History
  /-- The result of the last piece. -/
  result : Except Stop History
  session : Session

/-- The result of all pieces together, each without its last entry except the final one. -/
def Relay.whole (n : Int) (r : Relay) : Except Stop History :=
  joined n (r.earlier.flatMap fun h => h.entries.dropLast) r.result

/-- Runs a session under one limit after another, and goes on only if the limit has been
reached. -/
def relay (m : Session) (n : Nat) : List Nat → Option Relay
  | [] =>
    ((m.under (some n)).run 0 Sink.silent ()).map fun report =>
      ⟨[], report.result, report.session⟩
  | next :: rest =>
    ((m.under (some n)).run 0 Sink.silent ()).bind fun report =>
      match report.result with
      | .error (.limit _ h) =>
        (relay report.session next rest).map fun r => { r with earlier := h :: r.earlier }
      | result => some ⟨[], result, report.session⟩

theorem Records.dropLast (h : m.Records (n + 1) es) : m.Records n es.dropLast := by
  refine ⟨by rw [List.length_dropLast, h.1, Nat.add_sub_cancel], ?_⟩
  intro i e hi
  apply h.2 i e
  rw [List.getElem?_dropLast] at hi
  split at hi
  · exact hi
  · cases hi

/-- A result that is not that of a limit stays as it is. -/
theorem joined_nil {r : Except Stop History} (n : Int)
    (h : ∀ n' h, r = .error (.limit n' h) → n' = n) : joined n [] r = r := by
  cases r with
  | ok _ => rfl
  | error s =>
    cases s with
    | limit n' h' => rw [h n' h' rfl]; rfl
    | fault _ => rfl
    | refused _ => rfl

theorem joined_joined (n n' : Int) (es es' : List Entry) (r : Except Stop History) :
    joined n es (joined n' es' r) = joined n (es ++ es') r := by
  unfold joined
  rcases r with (_ | _ | _) | _ <;> simp [List.append_assoc]

theorem relay_of_limit {next : Nat} {rest : List Nat} {report : Report Unit} {h : History}
    (hrun : (m.under (some n)).run 0 Sink.silent () = some report)
    (hr : report.result = .error (.limit n h)) :
    relay m n (next :: rest) =
      (relay report.session next rest).map fun r => { r with earlier := h :: r.earlier } := by
  rw [relay, hrun, Option.bind_some, hr]

theorem relay_of_other {next : Nat} {rest : List Nat} {report : Report Unit}
    (hrun : (m.under (some n)).run 0 Sink.silent () = some report)
    (hr : ∀ n' h, report.result ≠ .error (.limit n' h)) :
    relay m n (next :: rest) = some ⟨[], report.result, report.session⟩ := by
  rw [relay, hrun, Option.bind_some]
  split
  · rename_i h
    exact absurd h (hr _ _)
  · rfl

/-- The pieces under one limit after another make up the run under the sum of the limits. -/
theorem relay_whole (m : Session) (n : Nat) (rest : List Nat) :
    ∃ r report, relay m n rest = some r ∧
      (m.under (some (n + rest.sum : Nat))).run 0 Sink.silent () = some report ∧
      report.result = r.whole (n + rest.sum : Nat) ∧
      report.session.entry = r.session.entry := by
  induction rest generalizing m n with
  | nil =>
    obtain ⟨report, hrun, hcases⟩ := run_under m n
    refine ⟨⟨[], report.result, report.session⟩, report, ?_, hrun, ?_, rfl⟩
    · rw [relay, hrun]
      rfl
    · refine (joined_nil n ?_).symm
      intro n' h hr
      rcases hcases with ⟨st, es, hlimit, -⟩ | hother
      · cases hr.symm.trans hlimit; rfl
      · exact absurd hr (hother n' h)
  | cons next rest ih =>
    obtain ⟨report, hrun, ⟨st, es, hr, ha, hes, hm⟩ | hother⟩ := run_under m n
    · obtain ⟨r, last, hrelay, hlast, hresult, hentry⟩ := ih report.session next
      rw [hm] at hlast
      -- The whole of the later pieces takes up the run where the first piece has left it.
      have hlast : ((m.moved n st).under (some (next + rest.sum : Nat))).run 0 Sink.silent () =
        some last := hlast
      have hresume : ((m.under (some (n + (next + rest.sum) : Nat))).run 0 Sink.silent ()).map
          (fun p => (p.result, p.session.entry)) = (((m.moved n st).under
            (some (next + rest.sum : Nat))).run 0 Sink.silent ()).map fun p =>
          (joined (n + (next + rest.sum) : Nat) es.dropLast p.result, p.session.entry) :=
        run_resume (some (next + rest.sum)) 0 ha hes.dropLast
      rw [hlast] at hresume
      obtain ⟨whole, hwhole, heq⟩ := Option.map_eq_some_iff.1 hresume
      obtain ⟨hresult', hentry'⟩ := Prod.mk.inj heq
      refine ⟨{ r with earlier := ⟨es⟩ :: r.earlier }, whole, ?_, hwhole, ?_, ?_⟩
      · rw [relay_of_limit hrun hr, hrelay]
        rfl
      · rw [hresult', hresult, Relay.whole, joined_joined]
        rfl
      · exact hentry'.trans hentry
    · obtain ⟨report', hrun', hresult, hentry⟩ := run_more (next + rest.sum) hrun hother
      refine ⟨⟨[], report.result, report.session⟩, report', relay_of_other hrun hother, hrun',
        ?_, hentry⟩
      rw [hresult]
      exact (joined_nil _ fun n' h hr => absurd hr (hother n' h)).symm

/-- A run that its sink has refused stands in the state that was refused, and has offered
the states before. -/
theorem run_refused_at {limit : Option Int} {report : Report σ} {r : Refusal}
    (hrun : (m.under limit).run fuel sink tray = some report)
    (hr : report.result = .error (.refused r)) :
    ∃ es k st, State.after k m.state = .ok st ∧ m.Records k es ∧
      report.session = (m.moved k st).under limit ∧
      sink.Receives ((es ++ [(m.moved k st).entry]).map Entry.texts) tray report.tray
        (some r) := by
  obtain ⟨o, hoffers, hreceives⟩ := run_receives hrun
  rw [hr] at hoffers
  generalize (travel sink (budget fuel (m.under limit).limit) (m.under limit) tray).visited = es
    at hoffers hreceives
  generalize report.session = m' at hoffers ⊢
  cases hoffers with
  | refused ha hes =>
    have hlast : es.dropLast ++ [(m.moved _ _).entry] = es :=
      List.dropLast_append_getLast? _ (hes.getLast? ha)
    exact ⟨es.dropLast, _, _, ha, hes.dropLast, rfl, hlast.symm ▸ hreceives⟩

/-- **A run can be cut into pieces and taken up again without loss.** Run under one limit
after another, as long as each is reached, a session comes to the state and to the result
to which a single run comes under the sum of the limits, and the histories of the pieces
make up that of the single run. The same holds of a run that a sink has refused, whatever
its limit, and that is taken up with a sink that does not refuse, under a limit or without
one: what was offered before the refused state and the history of the second run make up
that of the run without an interruption. -/
theorem run_in_pieces (m : Session) :
    (∀ n rest, ∃ r report, relay m n rest = some r ∧
      (m.under (some (n + rest.sum : Nat))).run 0 Sink.silent () = some report ∧
      report.result = r.whole (n + rest.sum : Nat) ∧
      report.session.entry = r.session.entry) ∧
    ∀ (σ : Type) (sink : Sink σ) tray limit fuel report r,
      (m.under limit).run fuel sink tray = some report → report.result = .error (.refused r) →
      ∃ es, sink.Receives ((es ++ [report.session.entry]).map Entry.texts) tray report.tray
          (some r) ∧
        ∀ (σ' : Type) (sink' : Sink σ') tray' (limit' : Option Nat) fuel',
          (∀ report' r', (report.session.under (limit'.map Int.ofNat)).run fuel' sink' tray' =
            some report' → report'.result ≠ .error (.refused r')) →
          ((m.under (limit'.map fun n => ((es.length + n : Nat) : Int))).run
              (es.length + fuel') Sink.silent ()).map (fun p => (p.result, p.session.entry)) =
            ((report.session.under (limit'.map Int.ofNat)).run fuel' sink' tray').map fun p =>
              (joined (es.length + limit'.getD 0 : Nat) es p.result, p.session.entry) := by
  refine ⟨relay_whole m, ?_⟩
  intro σ sink tray limit fuel report r hrun hr
  obtain ⟨es, k, st, ha, hes, hm, hreceives⟩ := run_refused_at hrun hr
  refine ⟨es, by rw [hm]; exact hreceives, ?_⟩
  intro σ' sink' tray' limit' fuel' htaken
  have hlast := congrArg (Option.map fun p =>
    (joined (k + limit'.getD 0 : Nat) es p.1, p.2.entry)) (run_of_taken htaken)
  simp only [Option.map_map, Function.comp_def] at hlast
  rw [hes.1, hlast, hm]
  exact run_resume limit' fuel' ha hes

/-- An assignment of a sum in three pieces, the second of which takes no step, and after a
sink that has refused the second state. -/
theorem run_in_pieces_assignment :
    let st : State := ⟨.assign "x" (.binary .add (.num 1) (.num 2)), ∅⟩
    let m : Session := ⟨st, 0, none⟩
    (∃ r report, relay m 1 [0, 5] = some r ∧ r.earlier.length = 2 ∧
      (m.under (some 6)).run 0 Sink.silent () = some report ∧ report.result = r.whole 6) ∧
    ∃ report, m.run 9 (Sink.failing 1) Tray.empty = some report ∧
      report.result = .error (.refused .failed) ∧ report.session.taken = 1 ∧
      ∃ es, (Sink.failing 1).Receives ((es ++ [report.session.entry]).map Entry.texts)
          Tray.empty report.tray (some .failed) ∧
        (m.run (es.length + 9) Sink.silent ()).map (fun p => (p.result, p.session.entry)) =
          ((report.session.under none).run 9 Sink.silent ()).map fun p =>
            (joined (es.length + 0 : Nat) es p.result, p.session.entry) := by
  intro st m
  obtain ⟨hpieces, hrefused⟩ := run_in_pieces m
  constructor
  · obtain ⟨r, report, hrelay, hrun, hresult, -⟩ := hpieces 1 [0, 5]
    have hlength : (relay m 1 [0, 5]).map (·.earlier.length) = some 2 := by decide +kernel
    rw [hrelay] at hlength
    exact ⟨r, report, hrelay, Option.some.inj hlength, hrun, hresult⟩
  · have hrun : m.run 9 (Sink.failing 1) Tray.empty = some _ :=
      run_of_refused (r := .failed) (by decide +kernel)
    obtain ⟨es, hreceives, hresume⟩ :=
      hrefused Tray (Sink.failing 1) Tray.empty none 9 _ .failed hrun rfl
    exact ⟨_, hrun, rfl, by decide +kernel, es, hreceives,
      hresume Unit Sink.silent () none 9 fun _ _ h => not_refused (fun _ _ => rfl) h⟩

end Stepwise.Session
