import Stepwise.Command.Reading

/-!
# What is read is in the words

Reading a command line is sound in both its outcomes. A request says nothing
that the words do not say: its name is one of them, and the value of a flag has been read from
a word or from the end of one. A complaint has a reason: the format it rejects is given in
the words and is the name of none, the limit is given and is no count, the command is given
and is none.

Main statement: `read_sound`.
-/

namespace Stepwise.Command

variable {p : Page} {f : Flag} {w text : String} {words rest all : List String} {letter : Bool}

/-- The text is a word, or is the end of one that begins with a flag. -/
def Shown (words : List String) (text : String) : Prop :=
  ∃ w ∈ words, text.toList <:+ w.toList

theorem Shown.of_mem (h : w ∈ words) : Shown words w := ⟨w, h, List.suffix_rfl⟩

/-! ## Text joined to a flag -/

theorem splitAtEquals?_suffix {start value : String}
    (h : splitAtEquals? w = some (start, value)) : value.toList <:+ w.toList := by
  have hdrop : w.toList.dropWhile (· != '=') <:+ w.toList := List.dropWhile_suffix _
  rw [splitAtEquals?] at h
  split at h
  · cases h
  · next c cs hcs =>
    cases h
    rw [hcs] at hdrop
    rw [String.toList_ofList]
    exact (List.suffix_cons c cs).trans hdrop

theorem Page.assigned?_joined (h : p.assigned? w = some (.joined f letter text)) :
    text.toList <:+ w.toList := by
  simp only [assigned?, Option.bind_eq_bind, Option.bind_eq_some_iff] at h
  obtain ⟨⟨start, value⟩, hsplit, g, -, hrole⟩ := h
  cases hrole
  exact splitAtEquals?_suffix hsplit

theorem Page.attached?_joined (h : p.attached? w = some (.joined f letter text)) :
    text.toList <:+ w.toList := by
  rw [attached?] at h
  split at h
  · next c value hw =>
    obtain ⟨g, -, hrole⟩ := Option.map_eq_some_iff.1 h
    cases hrole
    rw [hw, String.toList_ofList]
    exact (List.suffix_cons c value).trans (List.suffix_cons _ _)
  · cases h

theorem Page.shortened?_cases {r : Role} (h : p.shortened? w = some r) :
    (∃ f, r = .flag f) ∨ (∃ spellings, r = .ambiguous spellings) ∨
      ∃ f start value, splitAtEquals? w = some (start, value) ∧ r = .joined f false value := by
  rw [shortened?] at h
  split at h
  · cases hsplit : splitAtEquals? w with
    | none =>
      rw [hsplit] at h
      simp only at h
      split at h
      · cases h
      · next q _ => cases h; exact .inl ⟨q.2, rfl⟩
      · next qs _ _ _ => cases h; exact .inr (.inl ⟨_, rfl⟩)
    | some pair =>
      obtain ⟨start, value⟩ := pair
      rw [hsplit] at h
      simp only at h
      split at h
      · cases h
      · next q _ => cases h; exact .inr (.inr ⟨q.2, start, value, rfl, rfl⟩)
      · next qs _ _ _ => cases h; exact .inr (.inl ⟨_, rfl⟩)
  · cases h

theorem Page.shortened?_joined (h : p.shortened? w = some (.joined f letter text)) :
    text.toList <:+ w.toList := by
  rcases shortened?_cases h with ⟨g, hr⟩ | ⟨spellings, hr⟩ | ⟨g, start, value, hsplit, hr⟩
  · cases hr
  · cases hr
  · cases hr
    exact splitAtEquals?_suffix hsplit

/-- Where the role of a word comes from. -/
theorem Page.role_cases (p : Page) (w : String) :
    (w = "--" ∧ p.role w = .divider) ∨
    p.assigned? w = some (p.role w) ∨ p.attached? w = some (p.role w) ∨
      p.shortened? w = some (p.role w) ∨
    p.role w = .plain ∨ p.role w = .unknown ∨ ∃ f, p.role w = .flag f := by
  rw [role]
  split
  · next hw => exact .inl ⟨hw, rfl⟩
  refine .inr ?_
  split
  · simp
  split
  · simp
  cases p.assigned? w with
  | some r => exact .inl rfl
  | none =>
    cases p.attached? w with
    | some r => exact .inr (.inl rfl)
    | none =>
      cases p.shortened? w with
      | some r => exact .inr (.inr (.inl rfl))
      | none => split <;> simp

/-- What is joined to a flag is the end of the word. -/
theorem Page.role_joined (h : p.role w = .joined f letter text) :
    text.toList <:+ w.toList := by
  rcases p.role_cases w with ⟨-, hw⟩ | ha | ha | ha | hw | hw | ⟨g, hw⟩
  · rw [h] at hw; cases hw
  · exact assigned?_joined (ha.trans (congrArg some h))
  · exact attached?_joined (ha.trans (congrArg some h))
  · exact shortened?_joined (ha.trans (congrArg some h))
  · rw [h] at hw; cases hw
  · rw [h] at hw; cases hw
  · rw [h] at hw; cases hw

/-- The divider is one word only. -/
theorem Page.role_divider (h : p.role w = .divider) : w = "--" := by
  rcases p.role_cases w with ⟨hw, -⟩ | ha | ha | ha | hw | hw | ⟨g, hw⟩
  · exact hw
  · rw [h] at ha
    simp [assigned?, Option.bind_eq_some_iff] at ha
  · rw [h, attached?] at ha
    split at ha
    · simp at ha
    · cases ha
  · rw [h] at ha
    rcases shortened?_cases ha with ⟨g, hr⟩ | ⟨spellings, hr⟩ | ⟨g, start, value, -, hr⟩
    · cases hr
    · cases hr
    · cases hr
  · rw [h] at hw; cases hw
  · rw [h] at hw; cases hw
  · rw [h] at hw; cases hw

/-! ## What is said, and what is justified -/

/-- The words say what is known of a flag's value, by a text that is read to it. -/
inductive Given.Said {α ε : Type} (words : List String) (read : String → Except ε α) :
    Given α → Prop
  | absent : Said words read .absent
  | blank : Shown words "--" → Said words read .blank
  | value {text : String} {a : α} : Shown words text → read text = .ok a →
      Said words read (.value a)

/-- The words say what has been found in them. -/
structure Found.Said (words : List String) (found : Found) : Prop where
  name : ∀ n, found.name = some n → n ∈ words
  format : found.format.Said words readFormat
  limit : found.limit.Said words readLimit
  extras : ∀ w ∈ found.extras, w ∈ words

/-- The words give a page reason for the complaint. -/
def Misuse.Justified (words : List String) (p : Page) : Misuse → Prop
  | .ambiguous w spellings => w ∈ words ∧ p.role w = .ambiguous spellings
  | .noValue f => f.takesValue = true
  | .strayValue f _ => f.takesValue = false
  | .unknownFormat name => Shown words name ∧ ∀ f : Format, f.name ≠ name
  | .badLimit e => ∃ text, Shown words text ∧ Count.read text = .error e
  | .unknownCommand w => w ∈ words ∧ ∀ q ∈ Page.commands, q.1 ≠ w
  | .noName => p.takesName = true
  | .leftOver ws => ws ≠ [] ∧ ∀ w ∈ ws, w ∈ words

/-- An end that is a complaint is a justified one. -/
def End.Justified (words : List String) : End → Prop
  | .misuse p m => m.Justified words p
  | _ => True

/-- A result of reading is said by the words, or its end is justified. -/
def Sound {α : Type} (words : List String) (said : α → Prop) : Except End α → Prop
  | .ok a => said a
  | .error e => e.Justified words

theorem ofName?_eq_none {name : String} (h : Format.ofName? name = none) (f : Format) :
    f.name ≠ name := by
  have hf : f ∈ Format.all := by rcases f with (_ | _ | _ | _) | _ <;> decide
  simpa using List.find?_eq_none.1 h f hf

/-! ## The words of a command -/

theorem Given.ofText_ok {α ε : Type} {read : String → Except ε α} {g : Given α}
    (h : Given.ofText read text = .ok g) :
    (text = "--" ∧ g = .blank) ∨ ∃ a, read text = .ok a ∧ g = .value a := by
  rw [Given.ofText] at h
  split at h
  · next hblank =>
    cases h
    exact .inl ⟨hblank, rfl⟩
  · cases hr : read text with
    | error e => rw [hr] at h; cases h
    | ok a =>
      rw [hr] at h
      cases h
      exact .inr ⟨a, rfl, rfl⟩

theorem Given.said_of_ofText {α ε : Type} {read : String → Except ε α} {g : Given α}
    (h : Given.ofText read text = .ok g) (hs : Shown words text) : g.Said words read := by
  rcases Given.ofText_ok h with ⟨rfl, rfl⟩ | ⟨a, hr, rfl⟩
  · exact .blank hs
  · exact .value hs hr

theorem Given.read_of_ofText {α ε : Type} {read : String → Except ε α} {e : ε}
    (h : Given.ofText read text = .error e) : read text = .error e := by
  rw [Given.ofText] at h
  split at h
  · cases h
  · cases hr : read text with
    | error e' => rw [hr] at h; cases h; rfl
    | ok a => rw [hr] at h; cases h

theorem readFormat_ok {format : Format} (h : readFormat text = .ok format) :
    format.name = text := by
  rw [readFormat] at h
  split at h
  · next hsome =>
    cases h
    simpa using List.find?_some hsome
  · cases h

theorem readLimit_ok {n : Nat} (h : readLimit text = .ok n) : Count.read text = .ok n := by
  rw [readLimit] at h
  split at h
  · next hread =>
    cases h
    exact hread
  · cases h

theorem readFormat_error {m : Misuse} (h : readFormat text = .error m) (hs : Shown words text) :
    m.Justified words p := by
  rw [readFormat] at h
  split at h
  · cases h
  · next hnone =>
    cases h
    exact ⟨hs, ofName?_eq_none hnone⟩

theorem readLimit_error {m : Misuse} (h : readLimit text = .error m) (hs : Shown words text) :
    m.Justified words p := by
  rw [readLimit] at h
  split at h
  · cases h
  · next e he =>
    cases h
    exact ⟨text, hs, he⟩

/-- Taking note of a value that the words show keeps what has been found sound. -/
theorem Found.Said.set {found : Found} (h : found.Said words) (hs : Shown words text) :
    Sound words (Found.Said words) (found.set p f text) := by
  cases f with
  | format =>
    rw [Found.set]
    cases hg : Given.ofText readFormat text with
    | ok g => exact { h with format := Given.said_of_ofText hg hs }
    | error m => exact readFormat_error (Given.read_of_ofText hg) hs
  | limit =>
    rw [Found.set]
    cases hg : Given.ofText readLimit text with
    | ok g => exact { h with limit := Given.said_of_ofText hg hs }
    | error m => exact readLimit_error (Given.read_of_ofText hg) hs
  | _ => exact h

theorem Found.Said.leave {found : Found} (h : found.Said words) {ws : List String}
    (hws : ws ⊆ words) : (found.leave ws).Said words := by
  refine ⟨h.name, h.format, h.limit, ?_⟩
  intro w hw
  rcases List.mem_append.1 hw with hw | hw
  · exact h.extras w hw
  · exact hws hw

theorem Found.Said.named {found : Found} (h : found.Said words) (hw : w ∈ words) :
    { found with name := some w }.Said words :=
  { h with name := fun n hn => by cases hn; exact hw }

theorem Found.Said.nothing (words : List String) : Found.nothing.Said words :=
  ⟨nofun, .absent, .absent, nofun⟩

/-- Behind a flag that takes no value, a row of letters goes wrong only at another one, or
ends with a flag that does take a value. -/
theorem Page.cluster_flags (p : Page) (f : Flag) (hf : f.takesValue = false) (cs : List Char) :
    (∀ g, p.cluster f cs = .wants g → g.takesValue = true) ∧
      ∀ g text, p.cluster f cs = .stray g text → g.takesValue = false := by
  induction cs generalizing f with
  | nil => exact ⟨nofun, nofun⟩
  | cons c rest ih =>
    rw [cluster]
    split
    · exact ⟨nofun, fun g text h => by cases h; exact hf⟩
    · next g hg =>
      split
      · next hv =>
        split
        · exact ⟨fun g' h => by cases h; exact hv, nofun⟩
        · exact ⟨nofun, nofun⟩
      · next hv => exact ih g (by simpa using hv)

theorem Page.finish_justified (p : Page) (f : Flag) (words : List String) :
    (p.finish f).Justified words := by
  cases f <;> exact trivial

theorem Page.finishJoined_justified (p : Page) (hf : f.takesValue = false) (letter : Bool)
    (text : String) (rest words : List String) :
    (p.finishJoined f letter text rest).Justified words := by
  obtain ⟨hwants, hstray⟩ := p.cluster_flags f hf text.toList
  rw [finishJoined]
  split
  · exact p.finish_justified f words
  · next g t h =>
    split at h
    · exact hstray g t h
    · cases h
      exact hf
  · next g h =>
    split
    · exact p.finish_justified f words
    · split at h
      · exact hwants g h
      · cases h

theorem Found.Said.readBehind {found : Found} (h : found.Said all) (hw : "--" :: words ⊆ all) :
    (p.readBehind found words).Said all := by
  unfold Page.readBehind
  split
  · next w rest _ =>
    obtain ⟨-, hw⟩ := List.cons_subset.1 hw
    obtain ⟨hmem, hrest⟩ := List.cons_subset.1 hw
    exact (h.named hmem).leave hrest
  · exact h.leave hw

/-- What a page reads from words that are all known is sound. -/
theorem Page.readWords_sound {found : Found} (h : found.Said all) (hw : words ⊆ all) :
    Sound all (Found.Said all) (p.readWords found words) := by
  -- The induction is on the words, with what has been found so far as the invariant. A flag
  -- with its value takes two words at once.
  fun_induction p.readWords found words
  case case1 => exact h
  case case2 found w rest hrole =>
    have hdivider : w = "--" := role_divider hrole
    exact h.readBehind (hdivider ▸ hw)
  case case3 found w rest spellings hrole => exact ⟨(List.cons_subset.1 hw).1, hrole⟩
  -- Words that are left over: an unknown flag, or a plain word that nothing takes.
  case case4 ih | case7 ih =>
    obtain ⟨hmem, hrest⟩ := List.cons_subset.1 hw
    exact ih (h.leave (by simpa using hmem)) hrest
  -- The name, with the divider behind it or not.
  case case5 found w hrole hname rest =>
    obtain ⟨hmem, hrest⟩ := List.cons_subset.1 hw
    exact (h.named hmem).leave (List.cons_subset.1 hrest).2
  case case6 found w rest hrole hname hdivider ih =>
    obtain ⟨hmem, hrest⟩ := List.cons_subset.1 hw
    exact ih (h.named hmem) hrest
  -- A flag with its value behind it.
  case case9 found w f hrole hf v rest hv found' hset ih =>
    obtain ⟨-, hw⟩ := List.cons_subset.1 hw
    obtain ⟨hmem, hrest⟩ := List.cons_subset.1 hw
    have hfound := h.set (p := p) (f := f) (.of_mem hmem)
    rw [hset] at hfound
    exact ih hfound hrest
  case case10 found w f hrole hf v rest hv e hset =>
    obtain ⟨-, hw⟩ := List.cons_subset.1 hw
    have hfound := h.set (p := p) (f := f) (.of_mem (List.cons_subset.1 hw).1)
    rw [hset] at hfound
    exact hfound
  case case8 hf | case11 hf _ _ _ => exact hf
  case case12 found w rest f hrole hf => exact p.finish_justified f all
  -- A flag with text joined to it.
  case case13 found w rest f letter text hrole hf found' hset ih =>
    obtain ⟨hmem, hrest⟩ := List.cons_subset.1 hw
    have hfound := h.set (p := p) (f := f) ⟨w, hmem, role_joined hrole⟩
    rw [hset] at hfound
    exact ih hfound hrest
  case case14 found w rest f letter text hrole hf e hset =>
    have hfound := h.set (p := p) (f := f) ⟨w, (List.cons_subset.1 hw).1, role_joined hrole⟩
    rw [hset] at hfound
    exact hfound
  case case15 found w rest f letter text hrole hf =>
    exact p.finishJoined_justified (by simpa using hf) letter text rest all

theorem Page.ambiguity?_justified {e : End} (hw : words ⊆ all) (h : p.ambiguity? words = some e) :
    e.Justified all := by
  obtain ⟨w, hmem, h⟩ := List.exists_of_findSome?_eq_some h
  split at h
  · next spellings hrole =>
    cases h
    exact ⟨hw ((List.takeWhile_sublist _).subset hmem), hrole⟩
  · cases h

theorem Page.readCommand_sound (hw : words ⊆ all) :
    Sound all (Found.Said all) (p.readCommand words) := by
  have hwords := readWords_sound (p := p) (.nothing all) hw
  rw [readCommand]
  split
  · next e he => exact ambiguity?_justified hw he
  · split
    · next e he =>
      rw [he] at hwords
      exact hwords
    · next found hfound =>
      rw [hfound] at hwords
      split
      · next hname => exact (Bool.and_eq_true _ _ ▸ hname).1
      · exact hwords

/-! ## The words of the main page -/

/-- The value of a flag that takes any text. -/
def readText (text : String) : Except Empty String := .ok text

/-- The words say what has been read of them up to the command. -/
structure Opening.Said (words : List String) (opening : Opening) : Prop where
  level : opening.level.Said words readText
  extras : ∀ w ∈ opening.extras, w ∈ words
  command : ∀ p rest, opening.command = some (p, rest) → rest ⊆ words

theorem commandPage_ok (h : commandPage w = .ok p) : (w, p) ∈ Page.commands := by
  rw [commandPage] at h
  split at h
  · next hsome =>
    cases h
    obtain ⟨q, hq, rfl⟩ := Option.map_eq_some_iff.1 hsome
    have hw : q.1 = w := by simpa using List.find?_some hq
    exact hw ▸ List.mem_of_find?_eq_some hq
  · cases h

theorem commandPage_error {e : End} (h : commandPage w = .error e) (hw : w ∈ words) :
    e.Justified words := by
  rw [commandPage] at h
  split at h
  · cases h
  · next hnone =>
    cases h
    refine ⟨hw, ?_⟩
    simpa [Page.ofCommand?] using hnone

theorem readOpening_sound {level : Given String} {extras : List String}
    (hl : level.Said all readText) (he : ∀ w ∈ extras, w ∈ all)
    (hw : words ⊆ all) : Sound all (Opening.Said all) (readOpening level extras words) := by
  have hleave {w : String} {extras : List String} (he : ∀ v ∈ extras, v ∈ all) (hw : w ∈ all) :
      ∀ v ∈ extras ++ [w], v ∈ all := by
    intro v hv
    rcases List.mem_append.1 hv with hv | hv
    · exact he v hv
    · exact List.mem_singleton.1 hv ▸ hw
  fun_induction readOpening level extras words
  case case1 => exact ⟨hl, he, nofun⟩
  case case2 => exact ⟨hl, hleave he (List.cons_subset.1 hw).1, nofun⟩
  case case3 level extras w hrole v rest =>
    refine ⟨(List.cons_subset.1 hw).1, ?_⟩
    rw [Page.role_divider hrole]
    decide
  -- A plain word is the command, or is meant to be.
  case case4 level extras w rest hrole p hpage =>
    refine ⟨hl, he, ?_⟩
    intro p' rest' h
    cases h
    exact (List.cons_subset.1 hw).2
  case case5 hpage => exact commandPage_error hpage (List.cons_subset.1 hw).1
  case case6 hrole => exact ⟨(List.cons_subset.1 hw).1, hrole⟩
  case case7 ih =>
    obtain ⟨hmem, hrest⟩ := List.cons_subset.1 hw
    exact ih hl (hleave he hmem) hrest
  -- A flag with its value behind it.
  case case9 level extras w f hrole hf v rest hv ih =>
    obtain ⟨-, hw⟩ := List.cons_subset.1 hw
    obtain ⟨hmem, hrest⟩ := List.cons_subset.1 hw
    exact ih (.value (.of_mem hmem) rfl) he hrest
  case case8 hf | case10 hf _ _ _ => exact hf
  case case11 level extras w rest f hrole hf => exact Page.main.finish_justified f all
  -- A flag with text joined to it.
  case case12 level extras w rest f letter text hrole hf ih =>
    obtain ⟨hmem, hrest⟩ := List.cons_subset.1 hw
    have hs : Shown all text := ⟨w, hmem, Page.role_joined hrole⟩
    refine ih ?_ he hrest
    split
    · next hblank => exact .blank (hblank ▸ hs)
    · exact .value hs rfl
  case case13 level extras w rest f letter text hrole hf =>
    exact Page.main.finishJoined_justified (by simpa using hf) letter text rest all

/-! ## Requests -/

/-- The words say what the task is. -/
inductive Task.Said (words : List String) : Task → Prop
  | nothing : Said words .nothing
  | list : Said words .list
  | display {name : String} : name ∈ words → Said words (.display name)
  | run {name : String} {format : Given Format} {limit : Given Nat} : name ∈ words →
      format.Said words readFormat → limit.Said words readLimit →
      Said words (.run name format limit)

structure Request.Said (words : List String) (request : Request) : Prop where
  level : request.level.Said words readText
  task : request.task.Said words

theorem Found.Said.task {found : Found} (h : found.Said words)
    (hname : p.takesName = true → ∃ n, found.name = some n) : (p.task found).Said words := by
  cases p with
  | main => exact .nothing
  | list => exact .list
  | display =>
    obtain ⟨n, hn⟩ := hname rfl
    rw [Page.task, hn]
    exact .display (h.name n hn)
  | run =>
    obtain ⟨n, hn⟩ := hname rfl
    rw [Page.task, hn]
    exact .run (h.name n hn) h.format h.limit

theorem Page.readCommand_name {found : Found} (h : p.readCommand words = .ok found)
    (hp : p.takesName = true) : ∃ n, found.name = some n := by
  rw [readCommand] at h
  split at h
  · cases h
  split at h
  · cases h
  split at h
  · cases h
  · next hname =>
    cases h
    rw [hp, Bool.true_and, Bool.not_eq_true, Option.isNone_eq_false_iff] at hname
    exact Option.isSome_iff_exists.1 hname

theorem request_ok {level : Given String} {task : Task} {extras : List String}
    {r : Request} (h : request level task extras = .ok r) : r = ⟨level, task⟩ := by
  rw [request] at h
  split at h
  · cases h; rfl
  · cases h

theorem request_sound {level : Given String} {task : Task} {extras : List String}
    (hl : level.Said words readText) (ht : task.Said words)
    (he : ∀ w ∈ extras, w ∈ words) :
    Sound words (Request.Said words) (request level task extras) := by
  rw [request]
  split
  · exact ⟨hl, ht⟩
  · next hne => exact ⟨by simpa using hne, he⟩

theorem Opening.Said.read {opening : Opening} (h : opening.Said words) :
    Sound words (Request.Said words) opening.read := by
  rw [Opening.read]
  split
  · exact request_sound h.level .nothing h.extras
  · next p rest hcommand =>
    have hfound := p.readCommand_sound (h.command p rest hcommand)
    split
    · next e he =>
      rw [he] at hfound
      exact hfound
    · next found hok =>
      rw [hok] at hfound
      refine request_sound h.level (hfound.task (Page.readCommand_name hok)) ?_
      intro w hw
      rcases List.mem_append.1 hw with hw | hw
      · exact h.extras w hw
      · exact hfound.extras w hw

/-- **Reading is sound.** A request is said by the words, and a complaint is justified by
them. -/
theorem read_sound (words : List String) :
    Sound words (Request.Said words) (read words) := by
  have hopening : Sound words (Opening.Said words) (readOpening .absent [] words) :=
    readOpening_sound .absent nofun (List.Subset.refl words)
  rw [read]
  split
  · next e he => exact Page.ambiguity?_justified (List.Subset.refl words) he
  · split
    · next e he =>
      rw [he] at hopening
      exact hopening
    · next opening hok =>
      rw [hok] at hopening
      exact hopening.read

end Stepwise.Command
