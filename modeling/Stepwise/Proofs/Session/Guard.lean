import Stepwise.Proofs.Reduction.Evaluate
import Stepwise.Proofs.Reduction.Plain
import Stepwise.Proofs.Session.Walkers

/-!
# The guard of a step is exact

A step asked of a finished program is refused as irreducible, and nothing else ever is. The
rules look at the parts of a tree without asking again whether these can step, so a part that
is finished and of the wrong kind, such as the empty statement in the place of an operand or a
number at the head of a sequence, is reported in another way.

Whoever asks `canStep` before each step, as evaluation, runs and walkers do, is therefore never
refused so. Main statement: `irreducible_guarded`.
-/

namespace Stepwise

open Term

variable {s : Store} {t u : Term}

/-! ## The rules -/

theorem Term.canStep_ne_irreducible (t u : Term) : t.canStep ≠ .error (.irreducible u) := by
  intro h
  obtain ⟨v, -, hf⟩ := canStep_eq_error_iff.1 h
  cases hf

theorem Term.exists_of_isValue (h : t.isValue = true) : ∃ v : Value, t = v.term := by
  obtain ⟨v, hv⟩ := Option.isSome_iff_exists.1 h
  exact ⟨v, value?_eq_some_iff.1 hv⟩

theorem Op.apply_ne_irreducible (op : Op) (a b u : Term) :
    op.apply a b ≠ .error (.irreducible u) := by
  intro h
  rw [← combine_eq_apply, combine] at h
  split at h
  · cases h
  · split at h <;> cases h

namespace Plain

/-- No operand is refused as irreducible. -/
theorem operand_ne_irreducible (s : Store) (t u : Term) :
    operand s t ≠ .error (.irreducible u) := by
  intro h
  induction t with
  | var x =>
    rw [operand] at h
    split at h <;> cases h
  | binary op l r ihl ihr =>
    rw [operand] at h
    split at h
    · rename_i f hl
      cases h
      exact l.canStep_ne_irreducible u hl
    · exact ihl (map_eq_error_iff.1 h)
    · split at h
      · rename_i f hr
        cases h
        exact r.canStep_ne_irreducible u hr
      · exact ihr (map_eq_error_iff.1 h)
      · exact op.apply_ne_irreducible l r u h
  | _ => cases h

/-- An expression that is refused as irreducible is a value. -/
theorem expression_irreducible (h : expression s t = .error (.irreducible u)) :
    t.canStep = .ok false := by
  rw [expression] at h
  split at h
  · cases h
  · split at h
    · rename_i hv
      obtain ⟨v, rfl⟩ := exists_of_isValue hv
      exact canStep_term v
    · exact absurd h (operand_ne_irreducible s t u)

theorem expression_ne_irreducible (hc : t.canStep = .ok true) :
    expression s t ≠ .error (.irreducible u) :=
  fun h => nomatch (expression_irreducible h).symm.trans hc

/-- A statement that is refused as irreducible is the empty one. -/
theorem statement_irreducible (h : statement s t = .error (.irreducible u)) : t = skip := by
  induction t with
  | skip => rfl
  | assign x e =>
    rw [statement] at h
    split at h
    · rename_i f he
      cases h
      exact absurd he (e.canStep_ne_irreducible u)
    · rename_i he
      exact absurd (map_eq_error_iff.1 h) (expression_ne_irreducible he)
    · split at h <;> cases h
  | cond c a b =>
    rw [statement] at h
    split at h
    · rename_i f hc
      cases h
      exact absurd hc (c.canStep_ne_irreducible u)
    · rename_i hc
      exact absurd (map_eq_error_iff.1 h) (expression_ne_irreducible hc)
    · rw [map_eq_error_iff, choose.eq_def] at h
      split at h <;> cases h
  | seq a b iha _ =>
    rw [statement] at h
    split at h
    · cases h
    · rename_i ha
      exact absurd (iha (map_eq_error_iff.1 h)) ha
  | _ => cases h

end Plain

/-! ## Steps -/

/-- **A step is refused as irreducible exactly if the program is finished.** -/
theorem State.step_irreducible_iff {st : State} :
    st.step = .error (.irreducible u) ↔ st.program.canStep = .ok false ∧ u = st.program := by
  constructor
  · intro h
    have hc : st.program.canStep = .ok false := by
      rw [step] at h
      split at h
      · rw [Plain.stepStatement_eq] at h
        rw [Plain.statement_irreducible h]
        rfl
      · rw [map_eq_error_iff, Plain.stepExpression_eq] at h
        exact Plain.expression_irreducible h
    rw [step_of_finished hc] at h
    cases h
    exact ⟨hc, rfl⟩
  · rintro ⟨hc, rfl⟩
    exact step_of_finished hc

/-- With bindings that are allowed, an unchecked step is a step in their store. -/
theorem Term.stepFrom_eq {d : Draft} (hd : d.check = .ok s) (t : Term) :
    t.stepFrom d = State.step ⟨t, s⟩ := by
  rw [stepFrom, State.step]
  split
  · exact Plain.stepStatementFrom_eq hd t
  · rw [hd, stepExpression]
    cases t.expectExpression with
    | error f => rfl
    | ok _ =>
      simp only [bind, Except.bind, pure, Except.pure]
      cases t.walk s <;> rfl

theorem Store.accept_ne_irreducible (name : Scalar) (t u : Term) :
    Store.accept name t ≠ .error (.irreducible u) := by
  intro h
  rw [Store.accept.eq_def] at h
  split at h
  · split at h <;> cases h
  · cases h

theorem Draft.checkAll_ne_irreducible (pairs : List (Scalar × Term)) (u : Term) :
    checkAll pairs ≠ .error (.irreducible u) := by
  intro h
  induction pairs with
  | nil => cases h
  | cons p pairs ih =>
    obtain ⟨name, t⟩ := p
    rw [checkAll] at h
    cases ha : Store.accept name t with
    | error f =>
      rw [ha] at h
      cases h
      exact Store.accept_ne_irreducible name t u ha
    | ok q =>
      rw [ha] at h
      cases hp : checkAll pairs with
      | error f =>
        rw [hp] at h
        cases h
        exact ih hp
      | ok qs =>
        rw [hp] at h
        cases h

/-- Bindings that are not allowed are reported in another way. -/
theorem Draft.check_ne_irreducible (d : Draft) (u : Term) : d.check ≠ .error (.irreducible u) :=
  fun h => checkAll_ne_irreducible d.entries u (map_eq_error_iff.1 h)

/-- With bindings that are not allowed, an unchecked step reports them, or it reports what a
step reports in every store. -/
theorem Term.stepFrom_of_check_error {d : Draft} {f : Fault} (hd : d.check = .error f) (t : Term) :
    t.stepFrom d = .error f ∨
      ∃ f', t.stepFrom d = .error f' ∧ ∀ s, State.step ⟨t, s⟩ = .error f' := by
  rw [stepFrom, stepStatementFrom, hd]
  split
  · rename_i ht
    cases hx : t.expectStatement with
    | error f' =>
      refine .inr ⟨f', rfl, fun s => ?_⟩
      rw [State.step, if_pos ht, stepStatement, hx]
      rfl
    | ok _ => exact .inl rfl
  · rename_i ht
    cases hx : t.expectExpression with
    | error f' =>
      refine .inr ⟨f', rfl, fun s => ?_⟩
      rw [State.step_of_expression (eq_false_of_ne_true ht), stepExpression, hx]
      rfl
    | ok _ => exact .inl rfl

theorem Term.stepFrom_irreducible_iff (d : Draft) :
    t.stepFrom d = .error (.irreducible u) ↔ t.canStep = .ok false ∧ u = t := by
  constructor
  · intro h
    cases hd : d.check with
    | ok s =>
      rw [stepFrom_eq hd] at h
      exact State.step_irreducible_iff.1 h
    | error f =>
      rcases stepFrom_of_check_error hd t with hf | ⟨f', hf', hstep⟩
      · cases hf.symm.trans h
        exact absurd hd (d.check_ne_irreducible u)
      · cases hf'.symm.trans h
        exact State.step_irreducible_iff.1 (hstep ∅)
  · rintro ⟨hc, rfl⟩
    rcases canStep_eq_false_iff.1 hc with rfl | ⟨v, rfl⟩
    · rfl
    · cases v <;> rfl

/-! ## Evaluation, runs and walkers -/

theorem Term.evaluate_ne_irreducible (s : Store) (t u : Term) :
    t.evaluate s ≠ .error (.irreducible u) := by
  intro h
  fun_induction evaluate s t with
  | case1 t f hc =>
    cases h
    exact t.canStep_ne_irreducible u hc
  | case2 t hc => cases h
  | case3 t hc f hs =>
    cases h
    rw [Plain.stepExpression_eq] at hs
    exact Plain.expression_ne_irreducible hc hs
  | case4 t hc t' hs ih => exact ih h

namespace Session

variable {σ : Type} {m m' : Session}

theorem step_irreducible_iff :
    m.step = .error (.irreducible u) ↔ m.canStep = .ok false ∧ u = m.state.program := by
  cases hc : m.canStep with
  | error f =>
    refine ⟨?_, nofun⟩
    intro h
    rw [step, hc] at h
    cases h
    exact absurd hc (m.state.program.canStep_ne_irreducible u)
  | ok more =>
    cases more with
    | false => simp [step, hc, eq_comm]
    | true =>
      rw [step_eq_error_iff hc, State.step_irreducible_iff]
      exact and_congr_left' (by rw [← hc]; rfl)

/-- What has a step left is not refused as irreducible. -/
theorem step_ne_irreducible (hc : m.canStep = .ok true) : m.step ≠ .error (.irreducible u) :=
  fun h => nomatch (step_irreducible_iff.1 h).1.symm.trans hc

theorem travel_ne_irreducible (sink : Sink σ) (budget : Nat) (m : Session) (tray : σ) (u : Term) :
    (travel sink budget m tray).ending.fault? ≠ some (.irreducible u) := by
  intro h
  fun_induction travel sink budget m tray with
  | case1 _ m _ f hc =>
    cases h
    exact m.state.program.canStep_ne_irreducible u hc
  | case4 m _ _ _ _ f hs hc =>
    cases h
    exact step_ne_irreducible hc hs
  | case5 _ _ _ _ _ _ _ _ ih => exact ih h
  | _ => cases h

/-- A run that ends has not been refused as irreducible either. -/
theorem run_ne_irreducible (fuel : Nat) (sink : Sink σ) (m : Session) (tray : σ) (u : Term) :
    (m.run fuel sink tray).map (·.result) ≠ some (.error (.fault (.irreducible u))) := by
  intro h
  obtain ⟨report, hrun, hr⟩ := Option.map_eq_some_iff.1 h
  obtain ⟨o, hoffers, -⟩ := run_receives hrun
  rw [hr] at hoffers
  generalize report.session = m' at hoffers
  cases hoffers with
  | stuck _ hc hf _ => exact nomatch (State.step_irreducible_iff.1 hf).1.symm.trans hc

end Session

namespace Walker

variable {m : Session} {w : Walker} {s : Showing}

/-- A walker stops only before a program with a step left. -/
theorem Shown.canStep_of_paused (h : Shown m w s) (hw : s.walker = .paused) :
    s.session.canStep = .ok true := by
  cases h with
  | more _ hc => exact hc
  | _ => cases hw

theorem Shown.ne_irreducible (h : Shown m w s) (hw : w = .paused → m.canStep = .ok true) :
    s.outcome ≠ .stopped (.fault (.irreducible u)) := by
  cases h with
  | more => nofun
  | last => nofun
  | @strayed m' f _ hc =>
    intro h
    cases h
    exact m'.state.program.canStep_ne_irreducible u hc
  | stuck hp hs =>
    intro h
    cases h
    exact Session.step_ne_irreducible (hw hp) hs
  | exhausted => nofun

/-- A walker that nothing else disturbs is never refused as irreducible. -/
theorem tour_ne_irreducible (n : Nat) (hw : w = .paused → m.canStep = .ok true) :
    .stopped (.fault (.irreducible u)) ∉ (w.tour n m).1 := by
  induction n generalizing w m with
  | zero => nofun
  | succ n ih =>
    have hshown := next_shown w m
    rw [tour_succ n rfl, List.mem_cons, not_or]
    exact ⟨(hshown.ne_irreducible hw).symm, ih hshown.canStep_of_paused⟩

end Walker

/-- **The guard of a step is exact.** With any bindings and on any tree, a step is refused as
irreducible if and only if the program is finished, and it is the program itself that is then
reported; with a step left it is refused for no part of it. So evaluation is never refused so,
nor is a run of any session, whatever program it comes to and however far it goes, nor a walker
on a session that nothing else touches. -/
theorem irreducible_guarded {σ : Type} (sink : Sink σ) (u : Term) :
    (∀ (d : Draft) (t : Term),
      t.stepFrom d = .error (.irreducible u) ↔ t.canStep = .ok false ∧ u = t) ∧
    (∀ st : State, st.step = .error (.irreducible u) ↔
      st.program.canStep = .ok false ∧ u = st.program) ∧
    (∀ m : Session, m.step = .error (.irreducible u) ↔
      m.canStep = .ok false ∧ u = m.state.program) ∧
    (∀ (d : Draft) (t : Term), t.evaluateFrom d ≠ .error (.irreducible u)) ∧
    (∀ m tray, (∀ budget,
        (Session.travel sink budget m tray).ending.fault? ≠ some (.irreducible u)) ∧
      ∀ fuel, (m.run fuel sink tray).map (·.result) ≠ some (.error (.fault (.irreducible u)))) ∧
    (∀ b b' i os, b.walkers[i]? = some .fresh → Bench.Alone sink i b os b' →
      .stopped (.fault (.irreducible u)) ∉ os) := by
  refine ⟨fun d t => stepFrom_irreducible_iff d, fun st => State.step_irreducible_iff,
    fun m => Session.step_irreducible_iff, ?_, ?_, ?_⟩
  · intro d t h
    rw [evaluateFrom] at h
    cases hd : d.check with
    | error f =>
      rw [hd] at h
      cases h
      exact d.check_ne_irreducible u hd
    | ok s =>
      rw [hd] at h
      exact t.evaluate_ne_irreducible s u h
  · intro m tray
    exact ⟨fun budget => Session.travel_ne_irreducible sink budget m tray u,
      fun fuel => Session.run_ne_irreducible fuel sink m tray u⟩
  · intro b b' i os hw halone
    have htour := Walker.tour_ne_irreducible (u := u) (m := b.session) (w := .fresh) os.length nofun
    rwa [halone.tour hw] at htour

end Stepwise
