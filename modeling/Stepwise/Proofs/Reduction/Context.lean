import Stepwise.Proofs.Reduction.BigStep

/-!
# Statements in context

A `Context` is a statement with a hole where a statement is meant: in a branch, in either
half of a sequence, in the body of a loop, at any depth. `Refines a a'` says that whatever
result the statement `a` comes to, `a'` comes to as well, from the same store and in any
number of steps. Each shape of statement keeps it in each of its places (`Refines.cond`,
`Refines.seq`, `Refines.loop`), and so does every context.

Main statement: `Refines.fill`.
-/

namespace Stepwise

open Term

/-- A statement with a hole in the place of a statement. -/
inductive Context
  | hole
  /-- The hole is in the first branch. -/
  | consequence (c : Term) (K : Context) (b : Term)
  /-- The hole is in the second branch. -/
  | alternative (c a : Term) (K : Context)
  | first (K : Context) (b : Term)
  | second (a : Term) (K : Context)
  /-- The hole is in the body of a loop. -/
  | body (c : Term) (K : Context)
  deriving DecidableEq

namespace Context

/-- The statement with `t` in its hole. -/
def fill : Context → Term → Term
  | hole, t => t
  | consequence c K b, t => cond c (K.fill t) b
  | alternative c a K, t => cond c a (K.fill t)
  | first K b, t => seq (K.fill t) b
  | second a K, t => seq a (K.fill t)
  | body c K, t => loop c (K.fill t)

/-- The parts around the hole are statements and expressions where each is meant. -/
inductive Proper : Context → Prop
  | hole : Proper hole
  | consequence {c K b} : ProperExpression c → Proper K → ProperStatement b →
      Proper (consequence c K b)
  | alternative {c a K} : ProperExpression c → ProperStatement a → Proper K →
      Proper (alternative c a K)
  | first {K b} : Proper K → ProperStatement b → Proper (first K b)
  | second {a K} : ProperStatement a → Proper K → Proper (second a K)
  | body {c K} : ProperExpression c → Proper K → Proper (body c K)

theorem Proper.fill {K : Context} {t : Term} (hK : K.Proper) (ht : ProperStatement t) :
    ProperStatement (K.fill t) := by
  induction hK with
  | hole => exact ht
  | consequence hc _ hb ih => exact .cond hc ih hb
  | alternative hc ha _ ih => exact .cond hc ha ih
  | first _ hb ih => exact .seq ih hb
  | second ha _ ih => exact .seq ha ih
  | body hc _ ih => exact .loop hc ih

end Context

/-! ## Refinement -/

/-- From the store `s`, the statement comes to the result `r`. -/
def Gives (t : Term) (s : Store) (r : Except Fault Store) : Prop := ∃ n, Runs t s n r

/-- Whatever result the first statement comes to, the second comes to it too. -/
def Refines (a a' : Term) : Prop := ∀ s r, Gives a s r → Gives a' s r

namespace Refines

variable {a a' b b' c : Term}

theorem refl (a : Term) : Refines a a := fun _ _ h => h

theorem cond (ha : Refines a a') (hb : Refines b b') :
    Refines (.cond c a b) (.cond c a' b') := by
  rintro s r ⟨n, h⟩
  cases h with
  | @cond _ _ _ _ p m _ hp h =>
    cases p with
    | true =>
      obtain ⟨m', h'⟩ := ha s r ⟨m, h⟩
      exact ⟨_, .cond hp h'⟩
    | false =>
      obtain ⟨m', h'⟩ := hb s r ⟨m, h⟩
      exact ⟨_, .cond hp h'⟩
  | condFault hf => exact ⟨_, .condFault hf⟩
  | condOther hv hp => exact ⟨_, .condOther hv hp⟩

theorem seq (ha : Refines a a') (hb : Refines b b') : Refines (.seq a b) (.seq a' b') := by
  rintro s r ⟨n, h⟩
  cases h with
  | seq h₁ h₂ =>
    obtain ⟨m, h₁'⟩ := ha _ _ ⟨_, h₁⟩
    obtain ⟨n, h₂'⟩ := hb _ _ ⟨_, h₂⟩
    exact ⟨_, .seq h₁' h₂'⟩
  | seqFault h₁ =>
    obtain ⟨m, h₁'⟩ := ha _ _ ⟨_, h₁⟩
    exact ⟨_, .seqFault h₁'⟩

theorem loop (hb : Refines b b') : Refines (.loop c b) (.loop c b') := by
  rintro s r ⟨n, h⟩
  -- The induction is on the judgment: a round leaves the same loop, in another store.
  generalize ht : Term.loop c b = t at h
  induction h with
  | loopDone hp => cases ht; exact ⟨_, .loopDone hp⟩
  | loopAgain hp h₁ _ _ ih =>
    cases ht
    obtain ⟨m, h₁'⟩ := hb _ _ ⟨_, h₁⟩
    obtain ⟨n, h₂'⟩ := ih rfl
    exact ⟨_, .loopAgain hp h₁' h₂'⟩
  | loopBodyFault hp h₁ _ =>
    cases ht
    obtain ⟨m, h₁'⟩ := hb _ _ ⟨_, h₁⟩
    exact ⟨_, .loopBodyFault hp h₁'⟩
  | loopFault hf => cases ht; exact ⟨_, .loopFault hf⟩
  | loopOther hv hp => cases ht; exact ⟨_, .loopOther hv hp⟩
  | _ => cases ht

/-- An empty statement may be put behind a statement. -/
theorem seq_skip (a : Term) : Refines a (.seq a .skip) := by
  rintro s r ⟨n, h⟩
  cases r with
  | ok s' => exact ⟨_, .seq h .skip⟩
  | error f => exact ⟨n, .seqFault h⟩

/-- An empty statement behind a statement may be left out. -/
theorem of_seq_skip (a : Term) : Refines (.seq a .skip) a := by
  rintro s r ⟨n, h⟩
  cases h with
  | seq h₁ h₂ =>
    obtain ⟨-, rfl⟩ := runs_skip.1 h₂
    exact ⟨_, h₁⟩
  | seqFault h₁ => exact ⟨n, h₁⟩

/-- **A context keeps refinement**, wherever its hole is. -/
theorem fill (K : Context) (ha : Refines a a') : Refines (K.fill a) (K.fill a') := by
  induction K with
  | hole => exact ha
  | consequence c K b ih => exact ih.cond (.refl b)
  | alternative c a K ih => exact .cond (.refl a) ih
  | first K b ih => exact ih.seq (.refl b)
  | second a K ih => exact .seq (.refl a) ih
  | body c K ih => exact ih.loop

end Refines

end Stepwise
