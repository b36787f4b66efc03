/-!
# Tables: finite maps that remember when a key came first

A `Table κ α` binds distinct keys to values and lists them in the order in which
each key was FIRST written. Writing a key that is already there replaces the value
and leaves its place (`put`); writing a new key appends it. Two tables agree when they
give every key the same value, whatever the order of their writes (`agrees`).

Main statements: `get?_put` (a write shows at its own key only), `keys_put` (a write
moves no key) and `agrees_iff` (the test of agreement is exact).
-/

namespace Stepwise

/-! ## Lists of pairs -/

namespace Pairs

variable {κ α : Type} [DecidableEq κ]

/-- The value of the first pair with key `k`. -/
def get? (k : κ) : List (κ × α) → Option α
  | [] => none
  | p :: rest => if p.1 = k then some p.2 else get? k rest

/-- Replaces the value of the first pair with key `k`, or appends a new pair. -/
def put (k : κ) (v : α) : List (κ × α) → List (κ × α)
  | [] => [(k, v)]
  | p :: rest => if p.1 = k then (k, v) :: rest else p :: put k v rest

def keys (l : List (κ × α)) : List κ := l.map (·.1)

theorem get?_put (k k' : κ) (v : α) (l : List (κ × α)) :
    get? k' (put k v l) = if k = k' then some v else get? k' l := by
  induction l with
  | nil => rfl
  | cons p rest ih =>
    by_cases hp : p.1 = k
    · by_cases hk : k = k' <;> simp [put, get?, hp, hk]
    · by_cases hk : k = k'
      · subst hk
        simp [put, get?, hp, ih]
      · simp only [put, if_neg hp, get?, ih, if_neg hk]

theorem keys_put (k : κ) (v : α) (l : List (κ × α)) :
    keys (put k v l) = if k ∈ keys l then keys l else keys l ++ [k] := by
  induction l with
  | nil => simp [put, keys]
  | cons p rest ih =>
    by_cases hp : p.1 = k
    · simp [put, keys, hp]
    · have hk : ¬ k = p.1 := fun h => hp h.symm
      simp only [keys] at ih
      by_cases hm : k ∈ rest.map (·.1) <;> simp [put, keys, hp, hk, hm, ih]

theorem nodup_keys_put {k : κ} {v : α} {l : List (κ × α)} (h : (keys l).Nodup) :
    (keys (put k v l)).Nodup := by
  rw [keys_put]
  split
  · exact h
  · rename_i hk
    rw [List.nodup_append]
    refine ⟨h, by simp, ?_⟩
    intro a ha b hb hab
    rw [List.mem_singleton] at hb
    exact hk (hb ▸ hab ▸ ha)

theorem mem_of_get? {k : κ} {v : α} {l : List (κ × α)} (h : get? k l = some v) :
    (k, v) ∈ l := by
  induction l with
  | nil => cases h
  | cons p rest ih =>
    simp only [get?] at h
    split at h
    · rename_i hp
      cases h
      subst hp
      exact List.mem_cons_self
    · exact List.mem_cons_of_mem _ (ih h)

theorem get?_of_mem {k : κ} {v : α} {l : List (κ × α)} (hn : (keys l).Nodup)
    (h : (k, v) ∈ l) : get? k l = some v := by
  induction l with
  | nil => cases h
  | cons p rest ih =>
    simp only [keys, List.map_cons, List.nodup_cons] at hn
    rcases List.mem_cons.1 h with rfl | hr
    · simp [get?]
    · have hp : ¬ p.1 = k := fun e => hn.1 (e ▸ List.mem_map_of_mem hr)
      rw [get?, if_neg hp]
      exact ih hn.2 hr

theorem get?_eq_none_iff {k : κ} {l : List (κ × α)} : get? k l = none ↔ k ∉ keys l := by
  induction l with
  | nil => simp [get?, keys]
  | cons p rest ih =>
    by_cases hp : p.1 = k
    · simp [get?, keys, hp]
    · have hk : ¬ k = p.1 := fun h => hp h.symm
      simpa [get?, keys, hp, hk] using ih

/-- A new key comes last. -/
theorem put_of_notMem {k : κ} (v : α) {l : List (κ × α)} (h : k ∉ keys l) :
    put k v l = l ++ [(k, v)] := by
  induction l with
  | nil => rfl
  | cons p rest ih =>
    simp only [keys, List.map_cons, List.mem_cons, not_or] at h
    rw [put, if_neg (Ne.symm h.1), ih h.2, List.cons_append]

end Pairs

/-! ## Tables -/

/-- A finite map from `κ` to `α` whose keys are listed in order of first writing. -/
structure Table (κ α : Type) where
  /-- The pairs, oldest key first. -/
  entries : List (κ × α)
  /-- No key is listed twice. -/
  nodup : (Pairs.keys entries).Nodup
  deriving DecidableEq

namespace Table

variable {κ α : Type} [DecidableEq κ]

def empty : Table κ α := ⟨[], List.nodup_nil⟩

instance : EmptyCollection (Table κ α) := ⟨empty⟩

instance : Inhabited (Table κ α) := ⟨empty⟩

def get? (t : Table κ α) (k : κ) : Option α := Pairs.get? k t.entries

/-- Binds `k` to `v`: a known key keeps its place, a new one comes last. -/
def put (t : Table κ α) (k : κ) (v : α) : Table κ α :=
  ⟨Pairs.put k v t.entries, Pairs.nodup_keys_put t.nodup⟩

/-- Writes the pairs one after another. -/
def putAll (t : Table κ α) (pairs : List (κ × α)) : Table κ α :=
  pairs.foldl (fun t p => t.put p.1 p.2) t

/-- The table of a list of pairs: of two pairs with one key the first gives the place
and the last the value. -/
def ofList (pairs : List (κ × α)) : Table κ α := empty.putAll pairs

def keys (t : Table κ α) : List κ := Pairs.keys t.entries

def size (t : Table κ α) : Nat := t.entries.length

/-- Whether every binding of `t` is one of `u` too. -/
def within [DecidableEq α] (t u : Table κ α) : Bool :=
  t.entries.all fun p => u.get? p.1 = some p.2

/-- Whether both tables give every key the same value, in any order. -/
def agrees [DecidableEq α] (t u : Table κ α) : Bool := t.within u && u.within t

@[simp] theorem get?_empty (k : κ) : (empty : Table κ α).get? k = none := rfl

theorem get?_put (t : Table κ α) (k k' : κ) (v : α) :
    (t.put k v).get? k' = if k = k' then some v else t.get? k' :=
  Pairs.get?_put k k' v t.entries

theorem keys_put (t : Table κ α) (k : κ) (v : α) :
    (t.put k v).keys = if k ∈ t.keys then t.keys else t.keys ++ [k] :=
  Pairs.keys_put k v t.entries

/-- A write keeps the keys, in their order, and comes behind them if it is of a new one. -/
theorem keys_prefix_put (t : Table κ α) (k : κ) (v : α) : t.keys <+: (t.put k v).keys := by
  rw [keys_put]
  split
  · exact List.prefix_rfl
  · exact List.prefix_append _ _

theorem get?_eq_some_iff {t : Table κ α} {k : κ} {v : α} :
    t.get? k = some v ↔ (k, v) ∈ t.entries :=
  ⟨Pairs.mem_of_get?, Pairs.get?_of_mem t.nodup⟩

theorem get?_eq_none_iff {t : Table κ α} {k : κ} : t.get? k = none ↔ k ∉ t.keys :=
  Pairs.get?_eq_none_iff

theorem entries_putAll {t : Table κ α} {pairs : List (κ × α)}
    (h : (Pairs.keys (t.entries ++ pairs)).Nodup) :
    (t.putAll pairs).entries = t.entries ++ pairs := by
  induction pairs generalizing t with
  | nil => simp [putAll]
  | cons p pairs ih =>
    have hp : p.1 ∉ t.keys := by
      simp only [Pairs.keys, List.map_append, List.map_cons, List.nodup_append] at h
      exact fun hk => h.2.2 p.1 hk p.1 List.mem_cons_self rfl
    have hput : (t.put p.1 p.2).entries = t.entries ++ [p] := Pairs.put_of_notMem p.2 hp
    rw [show t.putAll (p :: pairs) = (t.put p.1 p.2).putAll pairs from rfl, ih, hput,
      List.append_assoc, List.singleton_append]
    rwa [hput, List.append_assoc, List.singleton_append]

/-- Pairs with distinct keys are the entries of their table. -/
theorem entries_ofList {pairs : List (κ × α)} (h : (Pairs.keys pairs).Nodup) :
    (ofList pairs).entries = pairs :=
  entries_putAll (t := empty) h

@[simp] theorem ofList_entries (t : Table κ α) : ofList t.entries = t := by
  obtain ⟨l, hl⟩ := t
  have h : (ofList l).entries = l := entries_ofList hl
  show ofList l = ⟨l, hl⟩
  generalize ofList l = u at h
  cases u
  cases h
  rfl

theorem within_iff [DecidableEq α] {t u : Table κ α} :
    t.within u = true ↔ ∀ k v, t.get? k = some v → u.get? k = some v := by
  simp only [within, List.all_eq_true, decide_eq_true_eq, get?_eq_some_iff, Prod.forall]

/-- **The test of agreement is exact.** -/
theorem agrees_iff [DecidableEq α] {t u : Table κ α} :
    t.agrees u = true ↔ ∀ k, t.get? k = u.get? k := by
  rw [agrees, Bool.and_eq_true, within_iff, within_iff]
  constructor
  · intro h k
    cases ht : t.get? k with
    | some v => exact (h.1 k v ht).symm
    | none =>
      cases hu : u.get? k with
      | some v => exact absurd (h.2 k v hu) (by simp [ht])
      | none => rfl
  · intro h
    exact ⟨fun k v hv => h k ▸ hv, fun k v hv => (h k).symm ▸ hv⟩

end Table

end Stepwise
