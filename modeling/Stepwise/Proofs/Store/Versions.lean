import Mathlib.Data.List.Forall2
import Stepwise.Proofs.Reduction.Rules
import Stepwise.Proofs.Store.Writes
import Stepwise.Store.Versions

/-!
# Versions and their histories

A store comes from pairs, with further pairs behind them, and from writes to earlier stores.
The history of a version is the list of all these pairs on the way to it (`Made`), and nothing
else shows in it: every way to read a version says of each name what its history wrote last,
and lists the names in the order of their first writes (`Reads`). Versions are alike if their
histories end with the same value for each name.

The proofs go by one equation, `Made.ofStore_eq`: with its bindings unchecked again, a version
is the table of its history.

Main statement: `versions_read_their_histories`.
-/

namespace Stepwise

/-! ## Bindings that a store may hold -/

namespace Store

variable {s s' : Store} {name : Scalar} {t : Term}

/-- Whether a store may hold a binding: the name is a text, and the value is finished. -/
def allowed : Scalar → Term → Bool
  | .text _, t => t.isValue
  | _, _ => false

theorem accept_eq_ok_iff {p : String × Value} :
    accept name t = .ok p ↔ name = .text p.1 ∧ t = p.2.term := by
  obtain ⟨x, v⟩ := p
  cases name with
  | text y =>
    rw [← Term.value?_eq_some_iff]
    cases ht : t.value? <;> simp [accept, ht]
  | _ => simp [accept]

theorem allowed_iff : allowed name t = true ↔ ∃ p, accept name t = .ok p := by
  cases name with
  | text x => cases ht : t.value? <;> simp [allowed, Term.isValue, accept, ht]
  | _ => simp [allowed, accept]

theorem bind_eq_ok_iff :
    s.bind name t = .ok s' ↔
      ∃ x v, (name = .text x ∧ t = Value.term v) ∧ s.put x v = s' := by
  simp only [Store.bind, map_eq_ok_iff, accept_eq_ok_iff, Prod.exists]

theorem exists_bind_iff : (∃ s', s.bind name t = .ok s') ↔ allowed name t = true := by
  rw [allowed_iff]
  simp only [Store.bind, map_eq_ok_iff]
  constructor
  · intro h
    obtain ⟨-, p, hp, -⟩ := h
    exact ⟨p, hp⟩
  · intro h
    obtain ⟨p, hp⟩ := h
    exact ⟨_, p, hp, rfl⟩

end Store

/-! ## Drafts -/

namespace Draft

variable {d : Draft} {s s' : Store} {pairs further : List (Scalar × Term)}

theorem checkAll_cons {p : Scalar × Term} {qs : List (String × Value)} :
    checkAll (p :: pairs) = .ok qs ↔
      ∃ q qs', Store.accept p.1 p.2 = .ok q ∧ checkAll pairs = .ok qs' ∧ q :: qs' = qs := by
  rw [checkAll]
  cases Store.accept p.1 p.2 <;> cases checkAll pairs <;>
    simp [bind, Except.bind, pure, Except.pure]

theorem checkAll_eq_ok {qs : List (String × Value)} (h : checkAll pairs = .ok qs) :
    pairs = qs.map fun q => (.text q.1, q.2.term) := by
  induction pairs generalizing qs with
  | nil => cases h; rfl
  | cons p pairs ih =>
    obtain ⟨q, qs, hq, hqs, rfl⟩ := checkAll_cons.1 h
    obtain ⟨hname, ht⟩ := Store.accept_eq_ok_iff.1 hq
    rw [List.map_cons, ← ih hqs, ← hname, ← ht]

theorem exists_checkAll_iff :
    (∃ qs, checkAll pairs = .ok qs) ↔ ∀ p ∈ pairs, Store.allowed p.1 p.2 = true := by
  induction pairs with
  | nil => exact ⟨fun _ => nofun, fun _ => ⟨[], rfl⟩⟩
  | cons p pairs ih =>
    rw [List.forall_mem_cons, ← ih, Store.allowed_iff]
    simp only [checkAll_cons]
    constructor
    · intro h
      obtain ⟨-, q, qs, hq, hqs, -⟩ := h
      exact ⟨⟨q, hq⟩, qs, hqs⟩
    · intro h
      obtain ⟨⟨q, hq⟩, qs, hqs⟩ := h
      exact ⟨_, q, qs, hq, hqs, rfl⟩

/-- A store holds the bindings of its draft in their order. -/
theorem check_eq_ok_iff : check d = .ok s ↔ ofStore s = d := by
  constructor
  · intro h
    obtain ⟨qs, hqs, rfl⟩ := map_eq_ok_iff.1 h
    have hentries : d.entries = qs.map fun q => (.text q.1, q.2.term) := checkAll_eq_ok hqs
    have hkeys : (Pairs.keys qs).Nodup := by
      have hnodup : ((Pairs.keys qs).map Scalar.text).Nodup := by
        have hnodup := d.nodup
        rw [hentries] at hnodup
        simpa [Pairs.keys, Function.comp_def] using hnodup
      exact List.Pairwise.of_map Scalar.text (fun x y hxy he => hxy (congrArg _ he)) hnodup
    apply Table.ext_entries
    rw [entries_ofStore, Table.entries_ofList hkeys, hentries]
  · intro h
    rw [← h, check_ofStore]

theorem ofStore_inj (h : ofStore s = ofStore s') : s = s' :=
  Except.ok.inj ((check_ofStore s).symm.trans ((congrArg check h).trans (check_ofStore s')))

theorem get?_ofStore (s : Store) (name : Scalar) :
    (ofStore s).get? name = (s.find? name).map Value.term := by
  rw [Table.get?, entries_ofStore]
  cases name with
  | text x =>
    rw [Store.find?, Table.get?]
    induction s.entries with
    | nil => rfl
    | cons p rest ih => by_cases hp : p.1 = x <;> simp [Pairs.get?, hp, ih]
  | _ =>
    rw [Pairs.get?_eq_none_iff.2]
    · rfl
    · simp [Pairs.keys]

theorem ofStore_put (s : Store) (x : String) (v : Value) :
    ofStore (s.put x v) = (ofStore s).put (.text x) v.term := by
  apply Table.ext_entries
  simp only [entries_ofStore, Table.put]
  induction s.entries with
  | nil => rfl
  | cons p rest ih => by_cases hp : p.1 = x <;> simp [Pairs.put, hp, ih]

/-- Further bindings have texts for names, and no reserved ones. -/
theorem furtherNames_iff :
    (∃ names, furtherNames further = .ok names ∧ ∀ x ∈ names, x ∉ reserved) ↔
      ∀ p ∈ further, ∃ x, p.1 = .text x ∧ x ∉ reserved := by
  induction further with
  | nil => exact ⟨fun _ => nofun, fun _ => ⟨[], rfl, nofun⟩⟩
  | cons p further ih =>
    obtain ⟨name, t⟩ := p
    rw [List.forall_mem_cons, ← ih]
    cases name with
    | text x =>
      simp only [furtherNames, map_eq_ok_iff]
      constructor
      · intro h
        obtain ⟨-, ⟨names, hnames, rfl⟩, hfree⟩ := h
        rw [List.forall_mem_cons] at hfree
        exact ⟨⟨x, rfl, hfree.1⟩, names, hnames, hfree.2⟩
      · intro h
        obtain ⟨⟨y, hy, hx⟩, names, hnames, hfree⟩ := h
        cases hy
        exact ⟨_, ⟨names, hnames, rfl⟩, List.forall_mem_cons.2 ⟨hx, hfree⟩⟩
    | _ => simp [furtherNames]

theorem checkWith_eq_ok_iff :
    checkWith d further = .ok s ↔
      (∀ p ∈ further, ∃ x, p.1 = .text x ∧ x ∉ reserved) ∧ check (d.putAll further) = .ok s := by
  rw [checkWith, ← furtherNames_iff]
  cases hnames : furtherNames further with
  | error r => simp
  | ok names =>
    cases hfind : names.find? (reserved.contains ·) with
    | none =>
      have hfree : ∀ x ∈ names, x ∉ reserved := by simpa using List.find?_eq_none.1 hfind
      have hnone : ∃ names', Except.ok (ε := Rejection) names = .ok names' ∧
          ∀ x ∈ names', x ∉ reserved := ⟨names, rfl, hfree⟩
      simp only [hfind, hnone, true_and]
      cases check (d.putAll further) <;> simp [Except.mapError]
    | some x =>
      have hx : x ∈ names := List.mem_of_find?_eq_some hfind
      have hreserved : x ∈ reserved := by simpa using List.find?_some hfind
      simp only [hfind]
      constructor
      · intro h
        cases h
      · intro h
        obtain ⟨⟨names', heq, hfree⟩, -⟩ := h
        cases heq
        exact absurd hreserved (hfree x hx)

/-- When a store can be made of pairs and further pairs behind them. -/
theorem exists_checkWith_iff :
    (∃ s, checkWith (Table.ofList pairs) further = .ok s) ↔
      (∀ p ∈ further, ∀ x ∈ reserved, p.1 ≠ .text x) ∧
        ∀ p ∈ Pairs.merged (pairs ++ further), Store.allowed p.1 p.2 = true := by
  simp only [checkWith_eq_ok_iff, check, map_eq_ok_iff, Table.putAll_ofList,
    ← Table.entries_ofList_eq_merged]
  constructor
  · intro h
    obtain ⟨-, hfurther, qs, hqs, -⟩ := h
    refine ⟨?_, exists_checkAll_iff.1 ⟨qs, hqs⟩⟩
    intro p hp x hx hname
    obtain ⟨y, hy, hfree⟩ := hfurther p hp
    cases hname.symm.trans hy
    exact hfree hx
  · intro h
    obtain ⟨hfree, hallowed⟩ := h
    obtain ⟨qs, hqs⟩ := exists_checkAll_iff.2 hallowed
    refine ⟨_, ?_, qs, hqs, rfl⟩
    intro p hp
    -- The name of a further binding is that of an entry, and so it is a text.
    have hkey : p.1 ∈ (Table.ofList (pairs ++ further)).keys := by
      rw [Table.keys_ofList, Pairs.mem_firsts]
      exact List.mem_map_of_mem (List.mem_append_right pairs hp)
    obtain ⟨q, hq, hname⟩ := List.mem_map.1 hkey
    obtain ⟨⟨x, v⟩, haccept⟩ := Store.allowed_iff.1 (hallowed q hq)
    have hx : p.1 = .text x := hname.symm.trans (Store.accept_eq_ok_iff.1 haccept).1
    exact ⟨x, hx, fun hreserved => hfree p hp x hreserved hx⟩

/-- A reserved name keeps a store from being made, even if each binding is allowed. -/
theorem not_checkWith_self :
    ¬ ∀ pairs further : List (Scalar × Term),
      (∃ s, checkWith (Table.ofList pairs) further = .ok s) ↔
        ∀ p ∈ Pairs.merged (pairs ++ further), Store.allowed p.1 p.2 = true := by
  intro h
  obtain ⟨s, hs⟩ := (h [] [(.text "self", .num 1)]).2 (by decide)
  cases hs

end Draft

/-! ## What a version reads -/

/-- A store is made by these pairs: first those that it was set up with, then those written to
it and to the stores that it comes from. -/
inductive Store.Made : List (Scalar × Term) → Store → Prop
  | new {pairs further : List (Scalar × Term)} {s : Store} :
      Draft.checkWith (Table.ofList pairs) further = .ok s → Made (pairs ++ further) s
  | bind {ws : List (Scalar × Term)} {s s' : Store} {name : Scalar} {t : Term} :
      Made ws s → s.bind name t = .ok s' → Made (ws ++ [(name, t)]) s'

namespace Store

variable {s s' : Store} {ws ws' : List (Scalar × Term)}

/-- With its bindings unchecked again, a store is the table of the pairs that have made it. -/
theorem Made.ofStore_eq (h : Made ws s) : Draft.ofStore s = Table.ofList ws := by
  induction h with
  | new hcheck =>
    rw [Draft.check_eq_ok_iff.1 (Draft.checkWith_eq_ok_iff.1 hcheck).2, Table.putAll_ofList]
  | bind _ hbind ih =>
    obtain ⟨x, v, ⟨rfl, rfl⟩, rfl⟩ := bind_eq_ok_iff.1 hbind
    rw [Draft.ofStore_put, ih, Table.ofList_concat]

/-- Every way to read a store gives each name the value that these pairs have for it last, and
lists the names in the order in which they come first. -/
structure Reads (s : Store) (ws : List (Scalar × Term)) : Prop where
  lookup_eq : ∀ name, (s.lookup name).map Value.term =
    (Pairs.last? name ws).elim (.error (.unbound name s)) .ok
  item_eq : ∀ name, (s.item name).map Value.term =
    (Pairs.last? name ws).elim (.error name) .ok
  find?_eq : ∀ name, (s.find? name).map Value.term = Pairs.last? name ws
  binds_iff : ∀ name, s.binds name = true ↔ name ∈ Pairs.keys ws
  unbound_iff : ∀ name, s.lookup name = .error (.unbound name s) ↔ name ∉ Pairs.keys ws
  size_eq : s.size = (Pairs.firsts ws).length
  keys_eq : s.keys.map Scalar.text = Pairs.firsts ws
  entries_eq : (s.entries.map fun p => (Scalar.text p.1, p.2.term)) = Pairs.merged ws
  texts_eq : s.texts = (Pairs.merged ws).map fun p => (p.1.plain, p.2.text)
  text_eq : s.text = "\x7b" ++ Text.joinWith ", "
    ((Pairs.merged ws).map fun p => p.1.plain ++ ": " ++ p.2.text) ++ "\x7d"

theorem Made.find? (h : Made ws s) (name : Scalar) :
    (s.find? name).map Value.term = Pairs.last? name ws := by
  rw [← Draft.get?_ofStore, h.ofStore_eq, Table.get?_ofList]

theorem Made.entries (h : Made ws s) :
    (s.entries.map fun p => (Scalar.text p.1, p.2.term)) = Pairs.merged ws := by
  rw [← Draft.entries_ofStore, h.ofStore_eq, Table.entries_ofList_eq_merged]

theorem Made.keys (h : Made ws s) : s.keys.map Scalar.text = Pairs.firsts ws := by
  rw [← Table.keys_ofList, ← h.ofStore_eq, Table.keys, Table.keys, Draft.entries_ofStore]
  simp [Pairs.keys, Function.comp_def]

theorem Made.reads (h : Made ws s) : s.Reads ws := by
  have hbound : ∀ name, s.find? name = none ↔ name ∉ Pairs.keys ws := by
    intro name
    rw [← Pairs.mem_firsts, ← Pairs.last?_eq_none_iff, ← h.find?, Option.map_eq_none_iff]
  constructor
  · intro name
    rw [← h.find?, lookup]
    cases s.find? name <;> rfl
  · intro name
    rw [← h.find?, item]
    cases s.find? name <;> rfl
  · exact h.find?
  · intro name
    rw [binds, Option.isSome_iff_ne_none, Ne, hbound, not_not]
  · intro name
    rw [← hbound, lookup]
    cases s.find? name <;> simp
  · rw [← h.keys, List.length_map, Table.keys, Pairs.keys, List.length_map, Table.size]
  · exact h.keys
  · exact h.entries
  · rw [← h.entries, List.map_map, texts]
    simp [Function.comp_def, Scalar.plain]
  · rw [← h.entries, List.map_map, text]
    simp [Function.comp_def, Scalar.plain]

/-! ## Likeness of versions -/

/-- Stores are alike if they give each name the same value. -/
theorem agrees_iff_find? : s.agrees s' = true ↔ ∀ name, s.find? name = s'.find? name := by
  rw [Table.agrees_iff]
  constructor
  · intro h name
    cases name with
    | text x => exact h x
    | _ => rfl
  · intro h x
    exact h (.text x)

theorem Made.agrees_iff (h : Made ws s) (h' : Made ws' s') :
    s.agrees s' = true ↔ ∀ name, Pairs.last? name ws = Pairs.last? name ws' := by
  have hterm : Function.Injective Value.term := fun v w hvw => by
    simpa using congrArg Term.value? hvw
  rw [agrees_iff_find?]
  simp only [← h.find?, ← h'.find?, (Option.map_injective hterm).eq_iff]

/-- A store is like a draft that gives each name the same value. -/
theorem Made.matches_iff (h : Made ws s) (d : Draft) :
    s.matches d = true ↔ ∀ name, Pairs.last? name ws = d.get? name := by
  rw [Store.matches, Table.agrees_iff, h.ofStore_eq]
  simp only [Table.get?_ofList]

/-- Writes of different names commute up to likeness. -/
theorem bind_comm {a b : Store} {x y : Scalar} {t u : Term} (hxy : x ≠ y)
    (ha : s.bind x t = .ok a) (hb : a.bind y u = .ok b) :
    ∃ a' b', s.bind y u = .ok a' ∧ a'.bind x t = .ok b' ∧ b.agrees b' = true := by
  obtain ⟨x, v, ⟨rfl, rfl⟩, rfl⟩ := bind_eq_ok_iff.1 ha
  obtain ⟨y, w, ⟨rfl, rfl⟩, rfl⟩ := bind_eq_ok_iff.1 hb
  refine ⟨s.put y w, (s.put y w).put x v, bind_eq_ok_iff.2 ⟨y, w, ⟨rfl, rfl⟩, rfl⟩,
    bind_eq_ok_iff.2 ⟨x, v, ⟨rfl, rfl⟩, rfl⟩, ?_⟩
  have hxy : x ≠ y := fun h => hxy (congrArg Scalar.text h)
  rw [Table.agrees_iff]
  intro k
  simp only [Table.get?_put]
  by_cases hx : x = k
  · have hy : y ≠ k := fun h => hxy (hx.trans h.symm)
    simp [hx, hy]
  · simp [hx]

/-- A write that comes before another of the same name gives that name its place, and its
value does not matter. -/
theorem Made.of_again {x : Scalar} {t t' : Term} {after : List (Scalar × Term)}
    (hx : x ∈ Pairs.keys after) (h : Made (ws ++ (x, t) :: after) s)
    (h' : Made (ws ++ (x, t') :: after) s') : s = s' := by
  apply Draft.ofStore_inj
  rw [h.ofStore_eq, h'.ofStore_eq]
  apply Table.ofList_eq
  · simp [Pairs.firsts, Pairs.keys]
  · intro k
    rw [Pairs.last?_of_again hx, Pairs.last?_of_again hx]

end Store

/-! ## Versions -/

namespace Versions

/-- A write that is asked for, to the version with a number. -/
structure Request where
  version : Nat
  name : Scalar
  term : Term

/-- The versions after a request; one that cannot be met leaves them as they are. -/
def serve (vs : Versions) (q : Request) : Versions :=
  match vs.at? q.version with
  | none => vs
  | some s =>
    match vs.bind s q.name q.term with
    | .error _ => vs
    | .ok done => done.1

/-- The histories after a request: one more, if the version is there and the binding allowed,
and it goes on from the history of that version. -/
def note (hs : List (List (Scalar × Term))) (q : Request) : List (List (Scalar × Term)) :=
  match hs[q.version]? with
  | none => hs
  | some ws => if Store.allowed q.name q.term then hs ++ [ws ++ [(q.name, q.term)]] else hs

def serveAll (vs : Versions) (qs : List Request) : Versions := qs.foldl serve vs

def noteAll (hs : List (List (Scalar × Term))) (qs : List Request) :
    List (List (Scalar × Term)) :=
  qs.foldl note hs

variable {vs : Versions} {hs : List (List (Scalar × Term))} {q : Request} {qs : List Request}

theorem prefix_serve (vs : Versions) (q : Request) : vs.stores <+: (vs.serve q).stores := by
  rw [serve]
  split
  · exact List.prefix_rfl
  · split
    · exact List.prefix_rfl
    · rename_i hbind
      obtain ⟨s', -, rfl⟩ := map_eq_ok_iff.1 hbind
      exact List.prefix_append _ _

/-- Served requests leave the earlier versions as they are. -/
theorem prefix_serveAll (vs : Versions) (qs : List Request) :
    vs.stores <+: (vs.serveAll qs).stores := by
  induction qs generalizing vs with
  | nil => exact List.prefix_rfl
  | cons q qs ih => exact (prefix_serve vs q).trans (ih (vs.serve q))

theorem forall₂_getElem? {α β : Type} {R : α → β → Prop} {as : List α} {bs : List β}
    (h : List.Forall₂ R as bs) (i : Nat) :
    (as[i]? = none ∧ bs[i]? = none) ∨ ∃ a b, as[i]? = some a ∧ bs[i]? = some b ∧ R a b := by
  induction h generalizing i with
  | nil => exact .inl ⟨rfl, rfl⟩
  | cons hab _ ih =>
    cases i with
    | zero => exact .inr ⟨_, _, rfl, rfl, hab⟩
    | succ i => simpa using ih i

/-- Each version goes on with its own history. -/
theorem serve_made (h : List.Forall₂ Store.Made hs vs.stores) (q : Request) :
    List.Forall₂ Store.Made (note hs q) (vs.serve q).stores := by
  rw [note, serve, at?]
  obtain ⟨hnone, hnone'⟩ | ⟨ws, s, hws, hs', hmade⟩ := forall₂_getElem? h q.version
  · rw [hnone, hnone']
    exact h
  · rw [hws, hs']
    simp only [Versions.bind]
    cases hbind : s.bind q.name q.term with
    | error f =>
      have hnot : ¬ Store.allowed q.name q.term = true := by
        rw [← Store.exists_bind_iff (s := s), hbind]
        exact nofun
      rw [if_neg hnot]
      exact h
    | ok s' =>
      rw [if_pos (Store.exists_bind_iff.1 ⟨s', hbind⟩)]
      exact List.rel_append h (.cons (.bind hmade hbind) .nil)

theorem serveAll_made (h : List.Forall₂ Store.Made hs vs.stores) (qs : List Request) :
    List.Forall₂ Store.Made (noteAll hs qs) (vs.serveAll qs).stores := by
  induction qs generalizing hs vs with
  | nil => exact h
  | cons q qs ih => exact ih (serve_made h q)

/-- **Versions read their own histories.** A store can be made of pairs and further ones behind
them if and only if no further one has a reserved name and, for each name, the last of the
pairs is allowed. Whatever is then asked of the versions, each of them is made by the pairs on
its own way, and stays as it is. It reads as these pairs say: the last of a name gives its
value, the first its place. Two versions are alike, or a version and a draft, if and only if
each name has the same value last. Hence writes of different names commute up to likeness, and
of a write that another one of its name follows only the place remains. -/
theorem versions_read_their_histories :
    (∀ pairs further : List (Scalar × Term),
      (∃ s, Draft.checkWith (Table.ofList pairs) further = .ok s) ↔
        (∀ p ∈ further, ∀ x ∈ Draft.reserved, p.1 ≠ .text x) ∧
          ∀ p ∈ Pairs.merged (pairs ++ further), Store.allowed p.1 p.2 = true) ∧
    (∀ (pairs further : List (Scalar × Term)) (s : Store) (qs : List Request),
      Draft.checkWith (Table.ofList pairs) further = .ok s →
      List.Forall₂ Store.Made (noteAll [pairs ++ further] qs) ((ofStore s).serveAll qs).stores ∧
      ∀ qs', ((ofStore s).serveAll qs).stores <+: ((ofStore s).serveAll (qs ++ qs')).stores) ∧
    (∀ (ws : List (Scalar × Term)) (s : Store), Store.Made ws s →
      s.Reads ws ∧
      (∀ ws' s', Store.Made ws' s' →
        (s.agrees s' = true ↔ ∀ name, Pairs.last? name ws = Pairs.last? name ws')) ∧
      ∀ d : Draft, s.matches d = true ↔ ∀ name, Pairs.last? name ws = d.get? name) ∧
    (∀ (s a b : Store) (x y : Scalar) (t u : Term), x ≠ y →
      s.bind x t = .ok a → a.bind y u = .ok b →
      ∃ a' b', s.bind y u = .ok a' ∧ a'.bind x t = .ok b' ∧ b.agrees b' = true) ∧
    (∀ (before after : List (Scalar × Term)) (x : Scalar) (t : Term) (s : Store),
      x ∈ Pairs.keys after → Store.Made (before ++ (x, t) :: after) s →
      (∀ t' s', Store.Made (before ++ (x, t') :: after) s' → s = s') ∧
      ∀ s', Store.Made (before ++ after) s' → s.agrees s' = true) := by
  refine ⟨fun _ _ => Draft.exists_checkWith_iff, ?_, ?_, ?_, ?_⟩
  · intro pairs further s qs hs
    refine ⟨serveAll_made (.cons (.new hs) .nil) qs, ?_⟩
    intro qs'
    rw [serveAll, serveAll, List.foldl_append]
    exact prefix_serveAll _ qs'
  · intro ws s h
    exact ⟨h.reads, fun ws' s' h' => h.agrees_iff h', h.matches_iff⟩
  · intro s a b x y t u hxy ha hb
    exact Store.bind_comm hxy ha hb
  · intro before after x t s hx h
    refine ⟨fun t' s' h' => h.of_again hx h', ?_⟩
    intro s' h'
    rw [h.agrees_iff h']
    intro name
    exact Pairs.last?_of_again hx

/-- Two versions that branch off the first one, and one that takes up the first branch: a
binding that is not allowed is set up and written over, and a write that is not allowed makes
no version. -/
theorem versions_read_their_histories_branching :
    let pairs : List (Scalar × Term) :=
      [(.text "y", .num 4), (.text "x", .stray .null), (.text "x", .num 1)]
    let s : Store := Table.ofList [("y", .num 4), ("x", .num 1)]
    let qs : List Request := [⟨0, .text "z", .bool true⟩, ⟨0, .text "y", .num 5⟩,
      ⟨1, .null, .num 0⟩, ⟨1, .text "y", .num 6⟩]
    Draft.checkWith (Table.ofList pairs) [] = .ok s ∧
      List.Forall₂ Store.Made
        [pairs, pairs ++ [(.text "z", .bool true)], pairs ++ [(.text "y", .num 5)],
          pairs ++ [(.text "z", .bool true), (.text "y", .num 6)]]
        ((ofStore s).serveAll qs).stores ∧
      ((ofStore s).serveAll qs).stores.map Store.text =
        ["\x7by: 4, x: 1\x7d", "\x7by: 4, x: 1, z: true\x7d", "\x7by: 5, x: 1\x7d",
          "\x7by: 6, x: 1, z: true\x7d"] ∧
      s.Reads pairs ∧
      (∃ a b a' b', s.bind (.text "z") (.bool true) = .ok a ∧
        a.bind (.text "y") (.num 6) = .ok b ∧ s.bind (.text "y") (.num 6) = .ok a' ∧
        a'.bind (.text "z") (.bool true) = .ok b' ∧ b.agrees b' = true) ∧
      ∀ s', Store.Made [(.text "y", .num 4), (.text "x", .num 1)] s' → s.agrees s' = true := by
  intro pairs s qs
  have hs : Draft.checkWith (Table.ofList pairs) [] = .ok s := rfl
  obtain ⟨-, hversions, hreads, hcomm, hagain⟩ := versions_read_their_histories
  refine ⟨hs, (hversions pairs [] s qs hs).1, by decide +kernel, (hreads _ s (.new hs)).1, ?_, ?_⟩
  · obtain ⟨a', b', hb⟩ :=
      hcomm s _ _ (.text "z") (.text "y") (.bool true) (.num 6) (by decide) rfl rfl
    exact ⟨_, _, a', b', rfl, rfl, hb⟩
  · exact (hagain [(.text "y", .num 4)] [(.text "x", .num 1)] (.text "x") (.stray .null) s
      (by decide) (.new hs)).2

end Versions

end Stepwise
