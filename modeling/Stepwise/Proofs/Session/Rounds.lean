import Stepwise.Proofs.Reduction.Evaluate
import Stepwise.Proofs.Session.Sequence
import Mathlib.Data.List.Chain

/-!
# The rounds of a loop

No rule runs a loop. It becomes a conditional whose condition is reduced away, and whose first
branch runs a copy of the body in front of the loop. The loop comes back whole when that copy
has come to its end, and nowhere else on the way. So the states of a run that show the loop
itself are the beginnings of its rounds, and the store of each is what the body has made of the
one before.

`InRound` lists the states between two such beginnings. A step stays among them or leads to the
next beginning (`InRound.step`), and a run goes from round to round (`InRound.after`). Main
statement: `loop_rounds`.
-/

namespace Stepwise

open Term

variable {c b : Term} {s s' : Store} {st st' : State} {f : Fault} {n : Nat}

/-! ## Conditions -/

theorem Term.ProperExpression.rooted (hc : ProperExpression c) : c.Rooted := by
  rintro l r rfl
  cases hc with
  | binary hop _ _ => exact hop rfl

/-- What becomes of a conditional in one step. -/
inductive ConditionProgress (s : Store) (c a b : Term) : Prop
  /-- The condition steps to a proper one of the same value. -/
  | reduces {c' : Term} (h : State.step ⟨cond c a b, s⟩ = .ok ⟨cond c' a b, s⟩)
      (proper : ProperExpression c') (value : c'.value s = c.value s)
  | chooses (p : Bool) (h : State.step ⟨cond c a b, s⟩ = .ok ⟨if p then a else b, s⟩)
      (value : c.value s = .ok (.bool p))
  | fails {f : Fault} (h : State.step ⟨cond c a b, s⟩ = .error f) (value : c.value s = .error f)
  /-- The condition has a value, but no truth value. -/
  | other {v : Term} (h : State.step ⟨cond c a b, s⟩ = .error (.conditionNotTruth v))
      (value : c.value s = .ok v) (hv : ∀ p, v ≠ .bool p)

theorem Term.ProperExpression.condition (hc : ProperExpression c) (s : Store) (a b : Term) :
    ConditionProgress s c a b := by
  cases hc.progress s with
  | finished v hv =>
    subst hv
    cases v with
    | num k =>
      have hnot : ∀ p, (Value.num k).term ≠ .bool p := nofun
      exact .other (State.step_cond_other rfl hnot) (value_term s _) hnot
    | bool p => exact .chooses p (State.step_cond_bool p a b) (value_term s _)
  | steps hcs hs hc' hv _ _ =>
    exact .reduces (by rw [State.step_cond hcs, hs]; rfl) hc' hv
  | fails hcs hs hv _ =>
    exact .fails (by rw [State.step_cond hcs, hs]; rfl) hv

namespace Session

/-! ## Rounds -/

/-- In the first store the condition is true, and the body comes to its end in the second. -/
structure Round (c b : Term) (s s' : Store) : Prop where
  condition : c.evaluate s = .ok (.bool true)
  body : Meets b s (.finishes s')

/-- A round that begins in the store fails. -/
inductive Breaks (c b : Term) (s : Store) : Fault → Prop
  | condition {f : Fault} : c.evaluate s = .error f → Breaks c b s f
  /-- The condition has a value, but no truth value. -/
  | other {v : Term} : c.evaluate s = .ok v → (∀ p, v ≠ .bool p) →
      Breaks c b s (.conditionNotTruth v)
  | body {f : Fault} : c.evaluate s = .ok (.bool true) → Meets b s (.fails f) → Breaks c b s f

/-- The states of the round that begins in the store `s`. -/
inductive InRound (c b : Term) (s : Store) : State → Prop
  | opens : InRound c b s ⟨loop c b, s⟩
  /-- The condition is being reduced. -/
  | tests {c' : Term} : ProperExpression c' → c'.value s = c.value s →
      InRound c b s ⟨cond c' (seq b (loop c b)) skip, s⟩
  /-- The body is being run, with the loop behind it. -/
  | works {j : Nat} {st : State} : c.value s = .ok (.bool true) → State.after j ⟨b, s⟩ = .ok st →
      InRound c b s (st.followedBy (loop c b))
  | leaves : c.value s = .ok (.bool false) → InRound c b s ⟨skip, s⟩

/-! ## One step -/

/-- **A step stays in the round**, and away from the loop, or it begins the next round. -/
theorem InRound.step (hc : ProperExpression c) (hb : ProperStatement b) (h : InRound c b s st)
    (hs : st.step = .ok st') :
    (InRound c b s st' ∧ st'.program ≠ loop c b) ∨
      ∃ s', Round c b s s' ∧ st' = ⟨loop c b, s'⟩ := by
  cases h with
  | opens =>
    rw [State.step_loop] at hs
    cases hs
    exact .inl ⟨.tests hc rfl, nofun⟩
  | tests hc' hv =>
    cases hc'.condition s (seq b (loop c b)) skip with
    | reduces hstep hc'' hv' =>
      cases hs.symm.trans hstep
      exact .inl ⟨.tests hc'' (hv'.trans hv), nofun⟩
    | chooses p hstep hp =>
      cases hs.symm.trans hstep
      cases p with
      | true => exact .inl ⟨.works (j := 0) (hv.symm.trans hp) rfl, nofun⟩
      | false => exact .inl ⟨.leaves (hv.symm.trans hp), nofun⟩
    | fails hstep _ => cases hs.symm.trans hstep
    | other hstep _ _ => cases hs.symm.trans hstep
  | @works j st hv ha =>
    by_cases hskip : st.program = skip
    · rw [step_followedBy_skip _ hskip] at hs
      cases hs
      have ha' : State.after j ⟨b, s⟩ = .ok ⟨skip, st.store⟩ := by rw [ha, ← hskip]
      have hbody : Meets b s (.finishes st.store) := (meets_finishes_iff hb).2 ⟨j, ha'⟩
      exact .inr ⟨st.store, ⟨(evaluate_eq hc.rooted).trans hv, hbody⟩, rfl⟩
    · rw [State.step_followedBy _ (isStatement_after hb ha) hskip] at hs
      obtain ⟨st₁, hs₁, rfl⟩ := map_eq_ok_iff.1 hs
      exact .inl ⟨.works hv ((State.after_succ_last ha).trans hs₁), nofun⟩
  | leaves _ => cases hs

/-- A step that fails is one of the condition or one of the body. -/
theorem InRound.step_error (hc : ProperExpression c) (hb : ProperStatement b)
    (h : InRound c b s st) (hcan : st.program.canStep = .ok true) (hf : st.step = .error f) :
    Breaks c b s f := by
  have heval : c.evaluate s = c.value s := evaluate_eq hc.rooted
  cases h with
  | opens => cases hf
  | tests hc' hv =>
    rw [← hv] at heval
    cases hc'.condition s (seq b (loop c b)) skip with
    | reduces hstep _ _ => cases hf.symm.trans hstep
    | chooses p hstep _ => cases hf.symm.trans hstep
    | fails hstep hval =>
      cases hf.symm.trans hstep
      exact .condition (heval.trans hval)
    | other hstep hval hnot =>
      cases hf.symm.trans hstep
      exact .other (heval.trans hval) hnot
  | @works j st hv ha =>
    by_cases hskip : st.program = skip
    · rw [step_followedBy_skip _ hskip] at hf
      cases hf
    · rw [State.step_followedBy _ (isStatement_after hb ha) hskip] at hf
      have hstuck : st.program.canStep = .ok true := (proper_after hb ha).canStep hskip
      have hruns : Runs b s j (.error f) :=
        (runs_iff_after hb).2 ⟨st, ha, hstuck, map_eq_error_iff.1 hf⟩
      exact .body (heval.trans hv) ((fails_iff hb).2 ⟨j, hruns⟩)
  | leaves _ => cases hcan

/-- A round in which the program is finished is the last one. -/
theorem InRound.finished (hc : ProperExpression c) (h : InRound c b s st)
    (hcan : st.program.canStep = .ok false) :
    c.evaluate s = .ok (.bool false) ∧ st = ⟨skip, s⟩ := by
  cases h with
  | leaves hv => exact ⟨(evaluate_eq hc.rooted).trans hv, rfl⟩
  | _ => cases hcan

/-! ## Whole runs -/

/-- The stores of the entries that show the program. -/
def storesAt (t : Term) (es : List Entry) : List Store :=
  (es.filter fun e => e.state.program = t).map fun e => e.state.store

theorem storesAt_cons_self {t : Term} {e : Entry} (h : e.state.program = t) (es : List Entry) :
    storesAt t (e :: es) = e.state.store :: storesAt t es := by
  simp [storesAt, h]

theorem storesAt_cons_of_ne {t : Term} {e : Entry} (h : e.state.program ≠ t) (es : List Entry) :
    storesAt t (e :: es) = storesAt t es := by
  simp [storesAt, h]

/-- **A run goes from round to round.** From a state in a round on, the recorded states that
show the loop are the beginnings of the rounds that follow, and the run has come to a state in
the last of them. -/
theorem InRound.after {m : Session} (hc : ProperExpression c) (hb : ProperStatement b)
    (h : InRound c b s m.state) (ha : State.after n m.state = .ok st) :
    ∃ es, m.Records (n + 1) (m.entry :: es) ∧
      (s :: storesAt (loop c b) es).IsChain (Round c b) ∧
      InRound c b ((storesAt (loop c b) es).getLastD s) st := by
  -- The first step is split off, so that the rest begins in the round to which it leads.
  induction n generalizing m s with
  | zero =>
    cases ha
    exact ⟨[], .singleton m, List.isChain_singleton s, h⟩
  | succ n ih =>
    cases hs : m.state.step with
    | error f =>
      rw [State.after_succ_of_error hs] at ha
      cases ha
    | ok st₁ =>
      rw [State.after_succ_of_step hs] at ha
      rcases h.step hc hb hs with ⟨h₁, hne⟩ | ⟨s', hround, rfl⟩
      · obtain ⟨es, hes, hchain, hin⟩ := ih (m := m.moved 1 st₁) h₁ ha
        refine ⟨_, .cons hs hes, ?_⟩
        rw [storesAt_cons_of_ne hne]
        exact ⟨hchain, hin⟩
      · obtain ⟨es, hes, hchain, hin⟩ := ih (m := m.moved 1 ⟨loop c b, s'⟩) .opens ha
        have hstores : storesAt (loop c b) ((m.moved 1 ⟨loop c b, s'⟩).entry :: es) =
            s' :: storesAt (loop c b) es := storesAt_cons_self rfl es
        refine ⟨_, .cons hs hes, ?_⟩
        rw [hstores, List.getLastD_cons]
        exact ⟨List.isChain_cons_cons.2 ⟨hround, hchain⟩, hin⟩

variable {limit : Option Int} {h : History} {m' : Session} {es : List Store}

/-- A run of a loop that comes to its end has made rounds until the condition was false. -/
theorem rounds_of_ends (hc : ProperExpression c) (hb : ProperStatement b)
    (hends : (begin (loop c b) s limit).Ends (.ok h) m') :
    ∃ es, storesAt (loop c b) h.entries = s :: es ∧ (s :: es).IsChain (Round c b) ∧
      c.evaluate (es.getLastD s) = .ok (.bool false) ∧
      h.final?.map Entry.state = some ⟨skip, es.getLastD s⟩ ∧
      m'.state = ⟨skip, es.getLastD s⟩ := by
  obtain ⟨j, st, e, hx, rfl⟩ := ends_iff_exits.1 hends
  cases hx with
  | @finished _ _ entries ha hcan _ hes =>
    obtain ⟨es, hes', hchain, hin⟩ :=
      InRound.after (m := begin (loop c b) s limit) hc hb .opens ha
    obtain ⟨hfalse, rfl⟩ := hin.finished hc hcan
    cases hes.unique hes'
    refine ⟨storesAt (loop c b) es, storesAt_cons_self rfl es, hchain, hfalse, ?_, rfl⟩
    rw [History.final?, hes.getLast? ha]
    rfl

/-- What every round keeps holds after the last one. -/
theorem rounds_induction {P : Store → Prop} (keeps : ∀ e e', P e → Round c b e e' → P e')
    (hs : P s) (hchain : (s :: es).IsChain (Round c b)) : P (es.getLastD s) :=
  hchain.induction P _ (fun e e' hround he => keeps e e' he hround) (fun _ => hs) _
    List.getLastD_mem_cons

/-- Under a limit a loop whose condition is never false is stopped or breaks in some round. -/
theorem stops_or_breaks (hc : ProperExpression c) (hb : ProperStatement b)
    (hnever : ∀ e, c.evaluate e ≠ .ok (.bool false)) (s : Store) (n : Int) :
    ∃ r m', (begin (loop c b) s (some n)).Ends r m' ∧
      ((∃ h, r = .error (.limit n h)) ∨
        ∃ es f, (s :: es).IsChain (Round c b) ∧ Breaks c b (es.getLastD s) f ∧
          r = .error (.fault f)) := by
  have hend : ¬ (begin (loop c b) s (some n)).Endless := fun h => nomatch (endless_iff.1 h).1
  rw [endless_iff_not_exits, Classical.not_not] at hend
  obtain ⟨j, st, e, r, hx⟩ := hend
  refine ⟨r, _, ends_iff_exits.2 ⟨j, st, e, hx, rfl⟩, ?_⟩
  obtain ⟨es, -, hchain, hin⟩ :=
    InRound.after (m := begin (loop c b) s (some n)) hc hb .opens hx.after
  cases hx with
  | finished _ hcan _ _ => exact absurd (hin.finished hc hcan).1 (hnever _)
  | stuck _ hcan hf _ => exact .inr ⟨_, _, hchain, hin.step_error hc hb hcan hf, rfl⟩
  | strayed ha hv _ =>
    have hproper : ProperStatement st.program := proper_after (.loop hc hb) ha
    rw [hv] at hproper
    cases hproper
  | spent hn _ _ _ =>
    cases hn
    exact .inl ⟨_, rfl⟩

/-- **A loop runs in rounds.** If the run of a proper loop comes to its end, the states of its
history that show the loop have stores `s, e₁, …, eₘ` such that in each but the last the
condition is true and the body comes to its end in the next; in the last one the condition is
false, and there the run ends. So what holds in `s` and is kept by every round holds at the
end. If the condition is false in no store, no run comes to an end, and under any limit the
limit is reached or a round fails in its condition or in its body. -/
theorem loop_rounds (hc : ProperExpression c) (hb : ProperStatement b) (s : Store) :
    (∀ limit h m', (begin (loop c b) s limit).Ends (.ok h) m' →
      ∃ es, storesAt (loop c b) h.entries = s :: es ∧ (s :: es).IsChain (Round c b) ∧
        c.evaluate (es.getLastD s) = .ok (.bool false) ∧
        h.final?.map Entry.state = some ⟨skip, es.getLastD s⟩ ∧
        m'.state = ⟨skip, es.getLastD s⟩) ∧
    (∀ P : Store → Prop, P s → (∀ e e', P e → Round c b e e' → P e') →
      ∀ limit h m', (begin (loop c b) s limit).Ends (.ok h) m' → P m'.state.store) ∧
    ((∀ e, c.evaluate e ≠ .ok (.bool false)) →
      (∀ limit h m', ¬ (begin (loop c b) s limit).Ends (.ok h) m') ∧
      ∀ n, ∃ r m', (begin (loop c b) s (some n)).Ends r m' ∧
        ((∃ h, r = .error (.limit n h)) ∨
          ∃ es f, (s :: es).IsChain (Round c b) ∧ Breaks c b (es.getLastD s) f ∧
            r = .error (.fault f))) := by
  refine ⟨fun limit h m' hends => rounds_of_ends hc hb hends, ?_, ?_⟩
  · intro P hs keeps limit h m' hends
    obtain ⟨es, -, hchain, -, -, hm⟩ := rounds_of_ends hc hb hends
    rw [hm]
    exact rounds_induction keeps hs hchain
  · intro hnever
    refine ⟨?_, fun n => stops_or_breaks hc hb hnever s n⟩
    intro limit h m' hends
    obtain ⟨es, -, -, hfalse, -⟩ := rounds_of_ends hc hb hends
    exact hnever _ hfalse

/-- The loop that triples a variable has its rounds, and they keep the variable positive. A
loop on the truth value itself never comes to its end. -/
theorem loop_rounds_tripling :
    let c := binary .less (var "x") (num 5)
    let b := assign "x" (binary .multiply (var "x") (num 3))
    let s : Store := Table.ofList [("x", .num 1)]
    ProperExpression c ∧ ProperStatement b ∧
      (∃ h m' es, (begin (loop c b) s none).Ends (.ok h) m' ∧
        storesAt (loop c b) h.entries = s :: es ∧ (s :: es).IsChain (Round c b) ∧
        m'.state = ⟨skip, es.getLastD s⟩ ∧
        ∃ k, 0 < k ∧ m'.state.store = Table.ofList [("x", .num k)]) ∧
      ∀ limit h m', ¬ (begin (loop (.bool true) b) s limit).Ends (.ok h) m' := by
  intro c b s
  have hc : ProperExpression c := .binary nofun (.var "x") (.num 5)
  have hb : ProperStatement b := .assign (.binary nofun (.var "x") (.num 3))
  have hbody : ∀ k, Runs b (Table.ofList [("x", .num k)]) 3
      (.ok (Table.ofList [("x", .num (k * 3))])) := fun k => .assign (v := .num (k * 3)) rfl
  have hlast : Runs (loop c b) (Table.ofList [("x", .num 9)]) 4 (.ok _) := .loopDone rfl
  have hsecond : Runs (loop c b) (Table.ofList [("x", .num 3)]) 12 (.ok _) :=
    .loopAgain rfl (hbody 3) hlast
  have hfirst : Runs (loop c b) s 20 (.ok _) := .loopAgain rfl (hbody 1) hsecond
  obtain ⟨h, hends, -⟩ := (runs_ok_iff_ends (.loop hc hb)).1 hfirst
  obtain ⟨hrounds, hkept, -⟩ := loop_rounds hc hb s
  obtain ⟨es, hstores, hchain, -, -, hm⟩ := hrounds _ _ _ hends
  have hpositive := hkept (fun e => ∃ k, 0 < k ∧ e = Table.ofList [("x", .num k)])
    ⟨1, by decide, rfl⟩ (by
      rintro e e' ⟨k, hk, rfl⟩ hround
      have htriple := hround.body.unique ((finishes_iff hb).2 ⟨3, hbody k⟩)
      cases htriple
      exact ⟨k * 3, by omega, rfl⟩) _ _ _ hends
  have htrue : ∀ e, (Term.bool true).evaluate e ≠ .ok (.bool false) := by
    intro e
    rw [evaluate_eq (ProperExpression.bool true).rooted]
    nofun
  obtain ⟨-, -, hnever⟩ := loop_rounds (.bool true) hb s
  exact ⟨hc, hb, ⟨h, _, es, hends, hstores, hchain, hm, hpositive⟩, (hnever htrue).1⟩

end Session

end Stepwise
