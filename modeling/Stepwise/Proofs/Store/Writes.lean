import Mathlib.Data.List.Basic
import Mathlib.Data.List.Induction
import Stepwise.Table

/-!
# Tables as sequences of writes

What a table holds can be told from the writes that have made it, in their order: the last
write of a key gives its value (`get?_ofList`), and the keys stand in the order of their first
writes (`keys_ofList`). Both together give the entries (`entries_ofList_eq_merged`).
-/

namespace Stepwise

/-! ## Sequences of writes -/

namespace Pairs

variable {κ α : Type} [DecidableEq κ] {k : κ} {ws ws' : List (κ × α)}

/-- The value of the last pair with key `k`. -/
def last? (k : κ) (ws : List (κ × α)) : Option α := get? k ws.reverse

/-- The keys in the order of their first pairs. -/
def firsts (ws : List (κ × α)) : List κ := (keys ws).eraseDups

/-- Each key with its last value, in the order of the first pairs. -/
def merged (ws : List (κ × α)) : List (κ × α) :=
  (firsts ws).filterMap fun k => (last? k ws).map fun v => (k, v)

theorem get?_append : get? k (ws ++ ws') = (get? k ws).or (get? k ws') := by
  induction ws with
  | nil => rfl
  | cons p ws ih =>
    by_cases hp : p.1 = k
    · simp [get?, hp]
    · simpa [get?, hp] using ih

theorem last?_append : last? k (ws ++ ws') = (last? k ws').or (last? k ws) := by
  rw [last?, List.reverse_append, get?_append, last?, last?]

theorem last?_concat (p : κ × α) :
    last? k (ws ++ [p]) = if p.1 = k then some p.2 else last? k ws := by
  by_cases hp : p.1 = k <;> simp [last?, get?, hp]

theorem mem_firsts : k ∈ firsts ws ↔ k ∈ keys ws := List.mem_eraseDups

theorem last?_eq_none_iff : last? k ws = none ↔ k ∉ firsts ws := by
  rw [last?, get?_eq_none_iff, mem_firsts, keys, keys, List.map_reverse, List.mem_reverse]

theorem firsts_concat (p : κ × α) :
    firsts (ws ++ [p]) = if p.1 ∈ firsts ws then firsts ws else firsts ws ++ [p.1] := by
  rw [firsts, keys, List.map_append, List.eraseDups_append]
  by_cases hp : p.1 ∈ List.map (·.1) ws
  · simp [List.removeAll, hp, firsts, keys]
  · simp [List.removeAll, hp, firsts, keys, List.eraseDups_cons]

/-- A pair does not matter for the last values if its key comes again. -/
theorem last?_of_again {x : κ} {v : α} (h : x ∈ keys ws') :
    last? k (ws ++ (x, v) :: ws') = last? k (ws ++ ws') := by
  rw [List.append_cons, last?_append, last?_concat, last?_append]
  by_cases hx : x = k
  · subst hx
    obtain ⟨u, hu⟩ : ∃ u, last? x ws' = some u := by
      rw [← Option.ne_none_iff_exists', Ne, last?_eq_none_iff, mem_firsts, not_not]
      exact h
    simp [hu]
  · simp [hx]

end Pairs

/-! ## The table of a sequence -/

namespace Table

variable {κ α : Type} [DecidableEq κ] {ws ws' : List (κ × α)}

omit [DecidableEq κ] in
theorem ext_entries {t u : Table κ α} (h : t.entries = u.entries) : t = u := by
  cases t
  cases u
  cases h
  rfl

theorem putAll_ofList (ws ws' : List (κ × α)) : (ofList ws).putAll ws' = ofList (ws ++ ws') :=
  List.foldl_append.symm

theorem ofList_concat (ws : List (κ × α)) (p : κ × α) :
    ofList (ws ++ [p]) = (ofList ws).put p.1 p.2 :=
  (putAll_ofList ws [p]).symm

/-- The last write of a key gives its value. -/
theorem get?_ofList (ws : List (κ × α)) (k : κ) : (ofList ws).get? k = Pairs.last? k ws := by
  induction ws using List.reverseRecOn with
  | nil => exact get?_empty k
  | append_singleton ws p ih => rw [ofList_concat, get?_put, Pairs.last?_concat, ih]

/-- The keys stand in the order of their first writes. -/
theorem keys_ofList (ws : List (κ × α)) : (ofList ws).keys = Pairs.firsts ws := by
  induction ws using List.reverseRecOn with
  | nil => rfl
  | append_singleton ws p ih => rw [ofList_concat, keys_put, Pairs.firsts_concat, ih]

theorem entries_eq_filterMap (t : Table κ α) :
    t.entries = t.keys.filterMap fun k => (t.get? k).map fun v => (k, v) := by
  rw [keys, Pairs.keys, List.filterMap_map]
  have hentry : ∀ p ∈ t.entries, (t.get? p.1).map (fun v => (p.1, v)) = some p := by
    intro p hp
    rw [get?_eq_some_iff.2 hp]
    rfl
  exact (List.filterMap_congr hentry).trans List.filterMap_some |>.symm

theorem entries_ofList_eq_merged (ws : List (κ × α)) : (ofList ws).entries = Pairs.merged ws := by
  rw [entries_eq_filterMap, keys_ofList]
  simp only [get?_ofList]
  rfl

/-- A table is determined by its keys in their order and the values of these. -/
theorem ofList_eq (hfirsts : Pairs.firsts ws = Pairs.firsts ws')
    (hlast : ∀ k, Pairs.last? k ws = Pairs.last? k ws') : ofList ws = ofList ws' := by
  apply ext_entries
  rw [entries_ofList_eq_merged, entries_ofList_eq_merged, Pairs.merged, hfirsts]
  simp only [hlast]
  rfl

end Table

end Stepwise
