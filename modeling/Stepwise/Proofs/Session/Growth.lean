import Stepwise.Proofs.Reduction.Frame
import Stepwise.Proofs.Reduction.Plain
import Stepwise.Proofs.Session.Exits
import Stepwise.Proofs.Session.Schedule
import Mathlib.Algebra.Order.Ring.Nat

/-!
# How large a program can grow

A loop that is unrolled becomes larger: a copy of its condition and of its body stand before
it. In nested loops such copies pile up in the heads of sequences, each round of an outer loop
anew. The programs of a run stay within a bound all the same, which the first program sets.

`peak` is read off the tree and is the invariant: it is never less than the size of the
program (`size_le_peak`), no step makes it greater (`peak_step`), and it is at most the square
of the size (`peak_le`).

Main statement: `run_size`.
-/

namespace Stepwise

open Term

namespace Term

/-- The number of nodes of a tree. A value from outside counts as a node. -/
def size : Term → Nat
  | binary _ l r => l.size + r.size + 1
  | assign _ e => e.size + 1
  | cond c a b => c.size + a.size + b.size + 1
  | seq a b => a.size + b.size + 1
  | loop c b => c.size + b.size + 1
  | _ => 1

/-- How large a program can become on its way. A condition and an expression only shrink. In
a sequence the second half waits until the first one has had its peak. A loop is unrolled
first, and then its body has its peak before a copy of the loop. -/
def peak : Term → Nat
  | cond c a b => max (c.size + a.size + b.size + 1) (max a.peak b.peak)
  | seq a b => max (a.peak + b.size + 1) b.peak
  | loop c b => max (2 * (c.size + b.size) + 4) (b.peak + (c.size + b.size + 1) + 1)
  | t => t.size

/-! ## Size and peak -/

theorem size_pos (t : Term) : 0 < t.size := by
  cases t <;> simp [size]

@[simp] theorem size_term (v : Value) : v.term.size = 1 := by
  cases v <;> rfl

theorem size_le_peak (t : Term) : t.size ≤ t.peak := by
  induction t with
  | seq a b iha _ => simp only [size, peak]; omega
  | cond c a b => simp only [size, peak]; omega
  | loop c b => simp only [size, peak]; omega
  | _ => exact Nat.le_refl _

theorem peak_of_expression {t : Term} (h : t.isStatement = false) : t.peak = t.size := by
  cases t <;> first | rfl | cases h

/-- What stands beside a part of size `m` is paid for by the square of the whole. -/
theorem square_add_le {m k n : Nat} (h : m + k ≤ n) : m ^ 2 + k * n ≤ n ^ 2 := by
  have hm : m * m ≤ m * n := Nat.mul_le_mul_left m (by omega)
  calc m ^ 2 + k * n
      ≤ m * n + k * n := by rw [sq]; exact Nat.add_le_add_right hm _
    _ = (m + k) * n := (Nat.add_mul m k n).symm
    _ ≤ n ^ 2 := by rw [sq]; exact Nat.mul_le_mul_right n h

/-- **The peak is at most the square of the size.** -/
theorem peak_le (t : Term) : t.peak ≤ t.size ^ 2 := by
  induction t with
  | cond c a b _ iha ihb =>
    simp only [peak, size, max_le_iff]
    refine ⟨Nat.le_self_pow two_ne_zero _, iha.trans ?_, ihb.trans ?_⟩
    · exact Nat.pow_le_pow_left (by omega) 2
    · exact Nat.pow_le_pow_left (by omega) 2
  | seq a b iha ihb =>
    simp only [peak, size, max_le_iff]
    generalize hn : a.size + b.size + 1 = n
    constructor
    · have hbeside : (b.size + 1) * 1 ≤ (b.size + 1) * n := Nat.mul_le_mul_left _ (by omega)
      have hsquare : a.size ^ 2 + (b.size + 1) * n ≤ n ^ 2 := square_add_le (by omega)
      omega
    · exact ihb.trans (Nat.pow_le_pow_left (by omega) 2)
  | loop c b _ ihb =>
    have hc := c.size_pos
    have hb := b.size_pos
    simp only [peak, size, max_le_iff]
    generalize hn : c.size + b.size + 1 = n
    constructor
    · -- The loop has three nodes at least, and twice its size falls short of three times.
      have hthree : 3 * n ≤ n ^ 2 := by rw [sq]; exact Nat.mul_le_mul_right n (by omega)
      omega
    · have htwo : 2 * n ≤ (c.size + 1) * n := Nat.mul_le_mul_right n (by omega)
      have hsquare : b.size ^ 2 + (c.size + 1) * n ≤ n ^ 2 := square_add_le (by omega)
      omega
  | _ => exact Nat.le_self_pow two_ne_zero _

end Term

variable {s : Store} {t t' : Term} {st st' : State} {n : Nat}

/-! ## One step -/

/-- An operand never grows. -/
theorem size_operand (h : Plain.operand s t = .ok t') : t'.size ≤ t.size := by
  induction t generalizing t' with
  | var x =>
    rw [Plain.operand] at h
    split at h
    · cases h
      rw [size_term]
      exact size_pos _
    · cases h
  | binary op l r ihl ihr =>
    rw [Plain.operand] at h
    split at h
    · cases h
    · obtain ⟨l', hl, rfl⟩ := map_eq_ok_iff.1 h
      have hsize : l'.size ≤ l.size := ihl hl
      simp only [size]
      omega
    · split at h
      · cases h
      · obtain ⟨r', hr, rfl⟩ := map_eq_ok_iff.1 h
        have hsize : r'.size ≤ r.size := ihr hr
        simp only [size]
        omega
      · obtain ⟨v, rfl, -⟩ := apply_eq_term h
        rw [size_term]
        exact size_pos _
  | _ => cases h

theorem size_expression (h : Plain.expression s t = .ok t') : t'.size ≤ t.size := by
  rw [Plain.expression] at h
  split at h
  · cases h
  · split at h
    · cases h
    · exact size_operand h

theorem peak_moves (h : Plain.Moves s t st) : st.program.peak ≤ t.peak := by
  induction h with
  | operand he => exact Nat.succ_le_succ (size_expression he)
  | binds x v => exact Nat.succ_le_succ (Nat.zero_le _)
  | condition hc =>
    have hsize := size_expression hc
    simp only [peak]
    omega
  | branch p a b => cases p <;> simp [peak]
  | second b => exact Nat.le_max_right _ _
  | first _ ih =>
    simp only [State.followedBy, peak]
    omega
  | unroll c b =>
    -- What the loop becomes is a state that its peak has been read off.
    simp only [peak, size]
    omega

/-- **No step raises the peak.** -/
theorem peak_step (h : st.step = .ok st') : st'.program.peak ≤ st.program.peak := by
  rw [State.step] at h
  split at h
  · exact peak_moves (.of_statement (Plain.stepStatement_eq _ _ ▸ h))
  · rename_i hs
    obtain ⟨t', ht', rfl⟩ := map_eq_ok_iff.1 h
    have he : t'.isStatement = false := isStatement_of_rule (stepExpression_ok ht').2
    rw [peak_of_expression he, peak_of_expression (Bool.eq_false_of_not_eq_true hs)]
    exact size_expression (Plain.stepExpression_eq _ _ ▸ ht')

/-! ## Whole runs -/

theorem size_after (h : State.after n st = .ok st') : st'.program.size ≤ st.program.size ^ 2 := by
  have hpeak : st'.program.peak ≤ st.program.peak :=
    State.after_induction (P := fun st' => st'.program.peak ≤ st.program.peak)
      (fun hst hs => (peak_step hs).trans hst) (Nat.le_refl _) h
  calc st'.program.size
      ≤ st'.program.peak := size_le_peak _
    _ ≤ st.program.peak := hpeak
    _ ≤ st.program.size ^ 2 := peak_le _

namespace Session

theorem size_of_shows {m : Session} {e : Entry} (h : m.Shows e) :
    e.state.program.size ≤ m.state.program.size ^ 2 := by
  obtain ⟨k, -, ha⟩ := h
  exact size_after ha

/-- **A program never grows beyond the square of its size.** From any state, with any tree
for a program, every number of steps leads to a program of at most `n ^ 2` nodes, where the
first one has `n`. So do the programs that a journey records and the one that it leaves
behind, with whatever budget and sink; and a run without an end goes on for ever among
programs of that size. -/
theorem run_size (m : Session) :
    (∀ k st, State.after k m.state = .ok st →
      st.program.size ≤ m.state.program.size ^ 2) ∧
    (∀ {σ : Type} (sink : Sink σ) (budget : Nat) (tray : σ),
      let j := travel sink budget m tray
      j.session.state.program.size ≤ m.state.program.size ^ 2 ∧
        ∀ e ∈ j.visited, e.state.program.size ≤ m.state.program.size ^ 2) ∧
    (m.Endless → ∀ k, ∃ st, State.after k m.state = .ok st ∧
      st.program.canStep = .ok true ∧ st.program.size ≤ m.state.program.size ^ 2) := by
  refine ⟨fun k st => size_after, ?_, ?_⟩
  · intro σ sink budget tray j
    obtain ⟨hlast, hvisited⟩ := travel_shows sink budget m tray
    exact ⟨size_of_shows hlast, fun e he => size_of_shows (hvisited e he)⟩
  · intro h k
    obtain ⟨st, ha, hc⟩ := (endless_iff.1 h).2 k
    exact ⟨st, ha, hc, size_after ha⟩

end Session

end Stepwise
