import Stepwise.Reduction.Expression

/-!
# Every step of an expression uses work up

A walk finds a place in the tree without changing the tree (`rebuild_descend`), and the
term found there loses work when it is contracted. So does the whole expression
(`work_stepExpression_lt`), whatever its shape: reducing an expression again and again
comes to an end.
-/

namespace Stepwise.Term

/-- Putting frames back keeps two terms apart in work. -/
theorem work_rebuild_lt {t u : Term} (path : List Frame) (h : t.work < u.work) :
    (rebuild path t).work < (rebuild path u).work := by
  induction path generalizing t u with
  | nil => exact h
  | cons f path ih =>
    refine ih ?_
    cases f <;> simp only [Frame.fill, work] <;> omega

/-- Rebuilding at the place where a walk ends gives back what was walked through. -/
theorem rebuild_descend {t spot : Term} {path path' : List Frame}
    (h : descend path t = .ok (path', spot)) : rebuild path' spot = rebuild path t := by
  induction t generalizing path with
  | binary op l r ihl ihr =>
    rw [descend] at h
    split at h
    · cases h
    · exact ihl h
    · split at h
      · cases h
      · exact ihr h
      · cases h
        rfl
  | _ => cases h; rfl

/-- A contraction leaves no work where there was some. -/
theorem work_contract_lt {s : Store} {t t' : Term} (h : contract s t = .ok t') :
    t'.work < t.work := by
  cases t with
  | var x =>
    simp only [contract] at h
    cases hs : s.lookup (.text x) with
    | error f => rw [hs] at h; cases h
    | ok v => rw [hs] at h; cases h; simp [work]
  | binary op l r =>
    simp only [contract, combine] at h
    split at h
    · cases h
    · split at h
      · cases h
        simp [work]
      · cases h
  | _ => cases h

/-- **A step of an expression uses work up.** -/
theorem work_stepExpression_lt {s : Store} {t t' : Term} (h : stepExpression s t = .ok t') :
    t'.work < t.work := by
  simp only [stepExpression, walk, bind, Except.bind] at h
  split at h
  · cases h
  · split at h
    · cases h
    · rename_i found hd
      obtain ⟨path, spot⟩ := found
      split at h
      · cases h
      · rename_i spot' hc
        cases h
        have hlt := work_rebuild_lt path (work_contract_lt hc)
        rwa [rebuild_descend hd] at hlt

end Stepwise.Term
