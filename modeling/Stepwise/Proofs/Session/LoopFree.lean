import Stepwise.Proofs.Reduction.Evaluate
import Stepwise.Proofs.Reduction.Plain
import Stepwise.Proofs.Session.Journey

/-!
# Without loops every run ends

Only a loop puts more into a program than it takes out of it. In a tree without one, each step
uses work up: an operand or a condition is reduced, an assignment or a sequence goes away, a
conditional gives way to one of its branches. This asks nothing of the shapes in the tree, and
it does not matter if the program that is left over is an expression, or no term at all.

So the work of the first program bounds the steps of a run, and the bound is one that a limit
may be set to. Main statement: `loopFree_ends`.
-/

namespace Stepwise

open Term

variable {s : Store} {t t' : Term} {st st' : State} {n : Nat}

namespace Term

/-- No loop stands anywhere in the tree. -/
def loopFree : Term → Bool
  | binary _ l r => l.loopFree && r.loopFree
  | assign _ e => e.loopFree
  | cond c a b => c.loopFree && a.loopFree && b.loopFree
  | seq a b => a.loopFree && b.loopFree
  | loop _ _ => false
  | _ => true

@[simp] theorem loopFree_term (v : Value) : v.term.loopFree = true := by
  cases v <;> rfl

/-- What has a step left has work left. -/
theorem work_pos (hc : t.canStep = .ok true) : 0 < t.work := by
  cases t with
  | num _ | bool _ | skip | stray _ => cases hc
  | _ => exact Nat.succ_pos _

end Term

/-! ## One step -/

namespace Plain

theorem loopFree_operand (h : operand s t = .ok t') (ht : t.loopFree = true) :
    t'.loopFree = true := by
  induction t generalizing t' with
  | var x =>
    rw [operand] at h
    split at h
    · cases h
      exact loopFree_term _
    · cases h
  | binary op l r ihl ihr =>
    obtain ⟨hl, hr⟩ := Bool.and_eq_true_iff.1 ht
    rw [operand] at h
    split at h
    · cases h
    · obtain ⟨l', hl', rfl⟩ := map_eq_ok_iff.1 h
      exact Bool.and_eq_true_iff.2 ⟨ihl hl' hl, hr⟩
    · split at h
      · cases h
      · obtain ⟨r', hr', rfl⟩ := map_eq_ok_iff.1 h
        exact Bool.and_eq_true_iff.2 ⟨hl, ihr hr' hr⟩
      · obtain ⟨v, rfl, -⟩ := apply_eq_term h
        exact loopFree_term v
  | _ => cases h

theorem loopFree_expression (h : expression s t = .ok t') (ht : t.loopFree = true) :
    t'.loopFree = true := by
  rw [expression] at h
  split at h
  · cases h
  · split at h
    · cases h
    · exact loopFree_operand h ht

theorem work_expression_lt (h : expression s t = .ok t') : t'.work < t.work :=
  work_stepExpression_lt ((stepExpression_eq s t).trans h)

theorem Moves.loopFree (h : Moves s t st) (ht : t.loopFree = true) :
    st.program.loopFree = true := by
  induction h with
  | operand he =>
    have he' := loopFree_expression he ht
    exact he'
  | binds x v => rfl
  | condition hc =>
    simp only [Term.loopFree, Bool.and_eq_true] at ht ⊢
    exact ⟨⟨loopFree_expression hc ht.1.1, ht.1.2⟩, ht.2⟩
  | branch p a b =>
    simp only [Term.loopFree, Bool.and_eq_true] at ht
    cases p with
    | true => exact ht.1.2
    | false => exact ht.2
  | second b => exact ht
  | first _ ih =>
    obtain ⟨ha, hb⟩ := Bool.and_eq_true_iff.1 ht
    exact Bool.and_eq_true_iff.2 ⟨ih ha, hb⟩
  | unroll c b => cases ht

theorem Moves.work_lt (h : Moves s t st) (ht : t.loopFree = true) :
    st.program.work < t.work := by
  induction h with
  | operand he => exact Nat.succ_lt_succ (work_expression_lt he)
  | binds x v => exact Nat.succ_pos _
  | condition hc =>
    have hlt := work_expression_lt hc
    simp only [work]
    omega
  | branch p a b =>
    have hle : (if p then a else b).work ≤ a.work + b.work := by cases p <;> simp
    simp only [work]
    omega
  | second b => simp only [work]; omega
  | first _ ih =>
    have hlt := ih (Bool.and_eq_true_iff.1 ht).1
    simp only [State.followedBy, work]
    omega
  | unroll c b => cases ht

end Plain

namespace State

/-- **A step brings no loop in and uses work up.** -/
theorem loopFree_step (h : st.step = .ok st') (ht : st.program.loopFree = true) :
    st'.program.loopFree = true ∧ st'.program.work < st.program.work := by
  rw [step] at h
  split at h
  · have hmoves := Plain.Moves.of_statement (Plain.stepStatement_eq _ _ ▸ h)
    exact ⟨hmoves.loopFree ht, hmoves.work_lt ht⟩
  · obtain ⟨t', ht', rfl⟩ := map_eq_ok_iff.1 h
    rw [Plain.stepExpression_eq] at ht'
    exact ⟨Plain.loopFree_expression ht' ht, Plain.work_expression_lt ht'⟩

/-! ## Whole runs -/

/-- The steps made and the work left come to no more than the work at first. -/
theorem loopFree_after (h : after n st = .ok st') (ht : st.program.loopFree = true) :
    st'.program.loopFree = true ∧ n + st'.program.work ≤ st.program.work := by
  induction n generalizing st with
  | zero =>
    cases h
    exact ⟨ht, Nat.le_of_eq (Nat.zero_add _)⟩
  | succ n ih =>
    cases hs : st.step with
    | error f =>
      rw [after_succ_of_error hs] at h
      cases h
    | ok st₁ =>
      rw [after_succ_of_step hs] at h
      obtain ⟨hfree, hlt⟩ := loopFree_step hs ht
      obtain ⟨hfree', hle⟩ := ih h hfree
      exact ⟨hfree', by omega⟩

end State

namespace Session

variable {σ : Type} {m : Session} {fuel : Nat}

/-- A journey that is not spent gives a report, and the limit is not what ended it. -/
theorem conclude_of_not_spent {j : Journey σ} (limit : Option Int) (h : j.ending ≠ .spent) :
    ∃ c, conclude limit j = some c ∧ ∀ n history, c.1 ≠ .error (.limit n history) := by
  obtain ⟨es, m', tray, records, ending⟩ := j
  cases ending with
  | spent => exact absurd rfl h
  | _ => exact ⟨_, rfl, nofun⟩

/-- A journey is not spent if its budget covers the work. -/
theorem travel_loopFree (sink : Sink σ) (tray : σ) (hm : m.state.program.loopFree = true)
    (hn : m.state.program.work ≤ n) :
    (travel sink n m tray).ending ≠ .spent ∧
      ∃ k st, k ≤ m.state.program.work ∧ State.after k m.state = .ok st ∧
        (travel sink n m tray).session = m.moved k st := by
  obtain ⟨k, st, -, ha, hsession, hreached⟩ := travel_reaches sink n m tray
  obtain ⟨-, hle⟩ := State.loopFree_after ha hm
  refine ⟨?_, k, st, by omega, ha, hsession⟩
  intro hspent
  rw [hspent] at hreached
  obtain ⟨rfl, hc, -⟩ := hreached
  have hpos := work_pos hc
  omega

theorem run_loopFree (sink : Sink σ) (tray : σ) (hm : m.state.program.loopFree = true)
    (hn : m.state.program.work ≤ budget fuel m.limit) :
    ∃ report k st, m.run fuel sink tray = some report ∧
      k ≤ m.state.program.work ∧ State.after k m.state = .ok st ∧
      report.session = m.moved k st ∧ ∀ n h, report.result ≠ .error (.limit n h) := by
  obtain ⟨hspent, k, st, hk, ha, hsession⟩ := travel_loopFree sink tray hm hn
  obtain ⟨c, hc, hlimit⟩ := conclude_of_not_spent m.limit hspent
  exact ⟨_, k, st, by rw [run, hc]; rfl, hk, ha, hsession, hlimit⟩

/-- **A program without loops always stops, and its work bounds the steps.** Whatever the tree
holds, and from any store, each step on the way leaves less work than there was. So a run
without a limit ends, by its history or by an error, within as many steps as the program has
work, whoever watches it; and so does a run under a limit of that many steps or more, which is
never what ends it. -/
theorem loopFree_ends (m : Session) (hm : m.state.program.loopFree = true) :
    (∀ k st, State.after k m.state = .ok st →
      st.program.loopFree = true ∧ k + st.program.work ≤ m.state.program.work ∧
      ∀ st', st.step = .ok st' → st'.program.work < st.program.work) ∧
    ∀ {σ : Type} (sink : Sink σ) (tray : σ) (fuel : Nat),
      (m.limit = none → m.state.program.work ≤ fuel) →
      (∀ n, m.limit = some n → (m.state.program.work : Int) ≤ n) →
      ∃ report k st, m.run fuel sink tray = some report ∧
        k ≤ m.state.program.work ∧ State.after k m.state = .ok st ∧
        report.session = m.moved k st ∧ ∀ n h, report.result ≠ .error (.limit n h) := by
  constructor
  · intro k st ha
    obtain ⟨hfree, hle⟩ := State.loopFree_after ha hm
    exact ⟨hfree, hle, fun st' hs => (State.loopFree_step hs hfree).2⟩
  · intro σ sink tray fuel hfuel hlimit
    refine run_loopFree sink tray hm ?_
    cases hl : m.limit with
    | none => exact hfuel hl
    | some n =>
      have hn := hlimit n hl
      rw [budget]
      omega

/-- A branch makes an expression of the program, and one that is refused in the end: there is
the empty statement for an operand. The work counts seven nodes, and a limit of seven does. -/
theorem loopFree_ends_branch :
    let t := seq (assign "x" (num 2)) (cond (binary .less (var "x") (num 5))
      (binary .add (var "x") skip) (stray .null))
    t.loopFree = true ∧ t.work = 7 ∧
      (∃ report, (begin t ∅ (some 7)).run 0 Sink.silent () = some report ∧
        ∀ n h, report.result ≠ .error (.limit n h)) ∧
      ∃ report k st, (begin t ∅ none).run 7 Sink.collect .empty = some report ∧ k ≤ 7 ∧
        State.after k ⟨t, ∅⟩ = .ok st ∧ report.session = (begin t ∅ none).moved k st := by
  intro t
  have ht : t.loopFree = true := rfl
  obtain ⟨-, hlimited⟩ := loopFree_ends (begin t ∅ (some 7)) ht
  obtain ⟨-, hfree⟩ := loopFree_ends (begin t ∅ none) ht
  refine ⟨ht, rfl, ?_, ?_⟩
  · obtain ⟨report, -, -, hrun, -, -, -, hresult⟩ := hlimited Sink.silent () 0 nofun
      (fun n hn => by cases hn; decide)
    exact ⟨report, hrun, hresult⟩
  · obtain ⟨report, k, st, hrun, hk, ha, hsession, -⟩ := hfree Sink.collect .empty 7
      (fun _ => Nat.le_refl 7) nofun
    exact ⟨report, k, st, hrun, hk, ha, hsession⟩

end Session

end Stepwise
