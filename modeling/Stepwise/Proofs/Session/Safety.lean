import Stepwise.Proofs.Reduction.Frame
import Stepwise.Proofs.Reduction.Progress
import Stepwise.Proofs.Session.Exits

/-!
# Proper programs are safe

A session with a proper program keeps to its family of programs, however long it runs, and
comes to its end in one of four ways: the program is finished in the way of its family, it
fails with an expected fault, the limit is reached, or the run goes on for ever. If the
store binds every name that the program reads, no lookup ever fails: steps bring in no name
to read and lose none that is bound (`no_unbound`).

Main statement: `proper_safe`.
-/

namespace Stepwise.Session

open Term

variable {F : Family} {m m' : Session} {st : State} {r : Except Stop History} {n : Nat}

/-- Every name that the program reads is bound. -/
def Closed (st : State) : Prop := ∀ x, st.program.Reads x → st.store.get? x ≠ none

/-- A run never loses a name that it is still to read. -/
theorem closed_after {st' : State} (hst : Closed st) (h : State.after n st = .ok st') :
    Closed st' := by
  intro x hx hnone
  have he := extension_after h
  apply hst x (he.mentions hx)
  rw [Table.get?_eq_none_iff] at hnone ⊢
  exact fun hk => hnone (he.keys.subset hk)

/-- With all its names bound, no program ever fails for want of a binding. -/
theorem no_unbound (hst : Closed st) (n : Nat) (name : Scalar) (s : Store) :
    State.after n st ≠ .error (.unbound name s) := by
  intro h
  obtain ⟨i, st', -, ha, hf⟩ := State.step_of_after_error h
  obtain ⟨-, x, -, hx, hnone⟩ := State.step_unbound hf
  exact closed_after hst ha x hx hnone

/-- The exits of a proper program. -/
theorem proper_ends (hm : F.Proper m.state.program) (h : m.Ends r m') :
    (∃ h, r = .ok h ∧ h.final? = some m'.entry ∧ F.Finished m'.state.program) ∨
    (∃ f, r = .error (.fault f) ∧ f.Expected m'.state.store) ∨
    ∃ n h, m.limit = some n ∧ r = .error (.limit n h) := by
  obtain ⟨j, st, e, hx, rfl⟩ := ends_iff_exits.1 h
  have hp : F.Proper st.program := hm.after hx.after
  cases hx with
  | finished ha hc _ hes =>
    have hf : F.Finished st.program := by
      rcases hp.canStep with hf | hc'
      · exact hf
      · rw [hc'] at hc
        cases hc
    exact .inl ⟨_, rfl, hes.getLast? ha, hf⟩
  | stuck _ hc hf _ => exact .inr (.inl ⟨_, rfl, hp.step_error hc hf⟩)
  | strayed _ hv _ =>
    rw [hv] at hp
    cases F <;> cases hp
  | spent hn _ _ _ => exact .inr (.inr ⟨_, _, hn, rfl⟩)

/-- **Proper programs are safe.** Whatever state a session with a proper program comes to,
its program is proper and of the same family, its store holds allowed bindings, and the
program is finished, or steps, or fails with an expected fault. A run ends with a finished
program, with an expected fault or at the limit, or it is endless. If every name that the
program reads is bound at the start, no step of any run fails for want of a binding. -/
theorem proper_safe (hm : F.Proper m.state.program) :
    (∀ n st, State.after n m.state = .ok st →
      F.Proper st.program ∧ (Draft.ofStore st.store).check = .ok st.store ∧
      (F.Finished st.program ∨ (∃ st', st.step = .ok st') ∨
        ∃ f, st.step = .error f ∧ f.Expected st.store)) ∧
    (m.Endless ∨ ∃ r m', m.Ends r m') ∧
    (∀ r m', m.Ends r m' →
      (∃ h, r = .ok h ∧ h.final? = some m'.entry ∧ F.Finished m'.state.program) ∨
      (∃ f, r = .error (.fault f) ∧ f.Expected m'.state.store) ∨
      ∃ n h, m.limit = some n ∧ r = .error (.limit n h)) ∧
    ((∀ x, m.state.program.Reads x → m.state.store.get? x ≠ none) → ∀ name s,
      (∀ n, State.after n m.state ≠ .error (.unbound name s)) ∧
      ∀ m', ¬ m.Ends (.error (.fault (.unbound name s))) m') := by
  refine ⟨?_, ?_, fun r m' => proper_ends hm, ?_⟩
  · intro n st h
    have hp : F.Proper st.program := hm.after h
    exact ⟨hp, Draft.check_ofStore st.store, hp.progress⟩
  · by_cases h : ∃ j st e r, m.Exits j st e r
    · obtain ⟨j, st, e, r, hx⟩ := h
      exact .inr ⟨r, _, ends_iff_exits.2 ⟨j, st, e, hx, rfl⟩⟩
    · exact .inl (endless_iff_not_exits.2 h)
  · intro hclosed name s
    refine ⟨fun n => no_unbound hclosed n name s, ?_⟩
    intro m' hends
    obtain ⟨j, st, e, hx, rfl⟩ := ends_iff_exits.1 hends
    cases hx with
    | stuck ha _ hf _ =>
      exact no_unbound hclosed (j + 1) name s ((State.after_succ_last ha).trans hf)

/-- A branch on the sum of a number and a truth value: every name is bound, so what the run
fails with is the fault of the operator. -/
theorem proper_safe_branch :
    let t := cond (binary .greater (binary .add (var "x") (var "y")) (num 2)) skip skip
    let s : Store := Table.ofList [("x", .num 3), ("y", .bool true)]
    let f : Fault := .operands .add (num 3) (bool true)
    Family.statement.Proper t ∧ (∀ x, t.Reads x → s.get? x ≠ none) ∧
      (∃ m', (begin t s none).Ends (.error (.fault f)) m' ∧ f.Expected m'.state.store) ∧
      ∀ name s' n, State.after n ⟨t, s⟩ ≠ .error (.unbound name s') := by
  intro t s f
  have ht : Family.statement.Proper t :=
    .cond (.binary (by decide) (.binary (by decide) (.var "x") (.var "y")) (.num 2)) .skip .skip
  have hs : ∀ x, t.Reads x → s.get? x ≠ none := by
    intro x hx
    have hxy : x = "x" ∨ x = "y" := by simpa [t, Reads, mentions] using hx
    rcases hxy with rfl | rfl
    · exact Option.some_ne_none (Value.num 3)
    · exact Option.some_ne_none (Value.bool true)
  obtain ⟨-, -, hends, hbound⟩ := proper_safe (m := begin t s none) ht
  have hend : ∃ m', (begin t s none).Ends (.error (.fault f)) m' :=
    ⟨_, ends_iff_exits.2 ⟨2, _, _, .stuck rfl rfl rfl (fun n hn => by cases hn), rfl⟩⟩
  obtain ⟨m', hend⟩ := hend
  refine ⟨ht, hs, ⟨m', hend, ?_⟩, fun name s' n => (hbound hs name s').1 n⟩
  rcases hends _ m' hend with ⟨h, hr, -⟩ | ⟨f', hr, hf⟩ | ⟨n, h, hn, -⟩
  · cases hr
  · cases hr; exact hf
  · cases hn

end Stepwise.Session
