/-!
# The grammar of JSON

The grammar of RFC 8259, whole: white space between the parts, numbers with fractions and
powers, every escape in a string, and lists and objects to any depth. Each rule relates the
characters it begins with, what it denotes, and the characters that remain: `Value cs v rest`
says that `cs` begins with a value that denotes `v`, and that `rest` follows it.

An escaped surrogate stands for a character only together with its other half, as strings
are made of characters here.

No rule is ambiguous (`Value.unique`), as long as what remains cannot be read as more of a
number or of white space; so a text is one document at most.

Main statement: `Document.unique`.
-/

namespace Stepwise.Grammar

/-- What a JSON text can denote. A number with a fraction or a power is told from an
integer, as `mantissa * 10 ^ exponent`. -/
inductive Datum
  | null
  | truth (b : Bool)
  | int (n : Int)
  | decimal (mantissa exponent : Int)
  | text (s : String)
  | list (items : List Datum)
  | object (members : List (String × Datum))

/-! ## White space -/

def isSpace (c : Char) : Bool := c = ' ' || c = '\t' || c = '\n' || c = '\r'

inductive Blanks : List Char → List Char → Prop
  | nil {rest : List Char} : Blanks rest rest
  | cons {c : Char} {cs rest : List Char} :
      isSpace c = true → Blanks cs rest → Blanks (c :: cs) rest

/-! ## Numbers -/

/-- One digit or more, and the row of them. -/
inductive Digits : List Char → List Char → List Char → Prop
  | last {c : Char} {rest : List Char} : c.isDigit = true → Digits (c :: rest) [c] rest
  | cons {c : Char} {cs ds rest : List Char} :
      c.isDigit = true → Digits cs ds rest → Digits (c :: cs) (c :: ds) rest

/-- A minus sign, or nothing. -/
inductive Minus : List Char → Int → List Char → Prop
  | absent {rest : List Char} : Minus rest 1 rest
  | present {rest : List Char} : Minus ('-' :: rest) (-1) rest

/-- A sign of either kind, or nothing. -/
inductive Sign : List Char → Int → List Char → Prop
  | plus {rest : List Char} : Sign ('+' :: rest) 1 rest
  | minus {cs rest : List Char} {s : Int} : Minus cs s rest → Sign cs s rest

/-- The digits before the point: no zero leads a row of several. -/
inductive Whole : List Char → List Char → List Char → Prop
  | zero {rest : List Char} : Whole ('0' :: rest) ['0'] rest
  | digits {c : Char} {cs ds rest : List Char} :
      c ≠ '0' → Digits (c :: cs) ds rest → Whole (c :: cs) ds rest

/-- The digits after the point, if there is one. -/
inductive Fraction : List Char → List Char → List Char → Prop
  | absent {rest : List Char} : Fraction rest [] rest
  | present {cs ds rest : List Char} : Digits cs ds rest → Fraction ('.' :: cs) ds rest

/-- The power of ten, if there is one. -/
inductive Power : List Char → Option Int → List Char → Prop
  | absent {rest : List Char} : Power rest none rest
  | present {c : Char} {cs cs' ds rest : List Char} {s : Int} :
      c = 'e' ∨ c = 'E' → Sign cs s cs' → Digits cs' ds rest →
      Power (c :: cs) (some (s * Nat.ofDigitChars 10 ds 0)) rest

/-- The number with these parts. -/
def numeral (s : Int) (ds fs : List Char) (x : Option Int) : Datum :=
  match fs, x with
  | [], none => .int (s * Nat.ofDigitChars 10 ds 0)
  | _, _ => .decimal (s * Nat.ofDigitChars 10 (ds ++ fs) 0) (x.getD 0 - fs.length)

inductive Number : List Char → Datum → List Char → Prop
  | mk {cs cs₁ cs₂ cs₃ ds fs rest : List Char} {s : Int} {x : Option Int} :
      Minus cs s cs₁ → Whole cs₁ ds cs₂ → Fraction cs₂ fs cs₃ → Power cs₃ x rest →
      Number cs (numeral s ds fs x) rest

/-! ## Strings -/

/-- The characters that an escape of one letter stands for. -/
def shortEscapes : List (Char × Char) :=
  [('"', '"'), ('\\', '\\'), ('/', '/'), ('b', '\x08'), ('f', '\x0c'), ('n', '\n'), ('r', '\r'),
    ('t', '\t')]

def hexValue? (c : Char) : Option Nat :=
  if c.isDigit then some (c.toNat - 48)
  else if 'a' ≤ c ∧ c ≤ 'f' then some (c.toNat - 87)
  else if 'A' ≤ c ∧ c ≤ 'F' then some (c.toNat - 55)
  else none

/-- Four hexadecimal digits. -/
inductive Hex : List Char → Nat → List Char → Prop
  | mk {c₁ c₂ c₃ c₄ : Char} {d₁ d₂ d₃ d₄ : Nat} {rest : List Char} :
      hexValue? c₁ = some d₁ → hexValue? c₂ = some d₂ →
      hexValue? c₃ = some d₃ → hexValue? c₄ = some d₄ →
      Hex (c₁ :: c₂ :: c₃ :: c₄ :: rest) (((16 * d₁ + d₂) * 16 + d₃) * 16 + d₄) rest

/-- What follows the backslash of an escape. -/
inductive Escape : List Char → Char → List Char → Prop
  | short {e c : Char} {rest : List Char} : shortEscapes.lookup e = some c →
      Escape (e :: rest) c rest
  | single {c : Char} {cs rest : List Char} : Hex cs c.toNat rest → Escape ('u' :: cs) c rest
  /-- A high surrogate and a low one. -/
  | pair {hi lo : Nat} {c : Char} {cs cs' rest : List Char} :
      Hex cs (0xd800 + hi) ('\\' :: 'u' :: cs') → hi < 0x400 →
      Hex cs' (0xdc00 + lo) rest → lo < 0x400 → c.toNat = 0x10000 + 0x400 * hi + lo →
      Escape ('u' :: cs) c rest

/-- The characters of a string up to its closing quote. -/
inductive Letters : List Char → List Char → List Char → Prop
  | close {rest : List Char} : Letters ('"' :: rest) [] rest
  | plain {c : Char} {cs s rest : List Char} :
      32 ≤ c.toNat → c ≠ '"' → c ≠ '\\' → Letters cs s rest → Letters (c :: cs) (c :: s) rest
  | escape {c : Char} {cs cs' s rest : List Char} :
      Escape cs c cs' → Letters cs' s rest → Letters ('\\' :: cs) (c :: s) rest

/-- The name of a member with the colon behind it. -/
inductive Name : List Char → String → List Char → Prop
  | mk {cs cs₁ cs₂ s rest : List Char} :
      Blanks cs ('"' :: cs₁) → Letters cs₁ s cs₂ → Blanks cs₂ (':' :: rest) →
      Name cs (String.ofList s) rest

/-! ## Values -/

mutual

inductive Value : List Char → Datum → List Char → Prop
  | null {rest : List Char} : Value ('n' :: 'u' :: 'l' :: 'l' :: rest) .null rest
  | true {rest : List Char} : Value ('t' :: 'r' :: 'u' :: 'e' :: rest) (.truth true) rest
  | false {rest : List Char} :
      Value ('f' :: 'a' :: 'l' :: 's' :: 'e' :: rest) (.truth false) rest
  | number {cs rest : List Char} {v : Datum} : Number cs v rest → Value cs v rest
  | text {cs s rest : List Char} :
      Letters cs s rest → Value ('"' :: cs) (.text (String.ofList s)) rest
  | nil {cs rest : List Char} : Blanks cs (']' :: rest) → Value ('[' :: cs) (.list []) rest
  | list {cs rest : List Char} {vs : List Datum} :
      Items cs vs rest → Value ('[' :: cs) (.list vs) rest
  | empty {cs rest : List Char} :
      Blanks cs ('\x7d' :: rest) → Value ('\x7b' :: cs) (.object []) rest
  | object {cs rest : List Char} {ms : List (String × Datum)} :
      Members cs ms rest → Value ('\x7b' :: cs) (.object ms) rest

/-- A value with white space around it. -/
inductive Element : List Char → Datum → List Char → Prop
  | mk {cs cs₁ cs₂ rest : List Char} {v : Datum} :
      Blanks cs cs₁ → Value cs₁ v cs₂ → Blanks cs₂ rest → Element cs v rest

/-- The items of a list up to its closing bracket. -/
inductive Items : List Char → List Datum → List Char → Prop
  | last {cs rest : List Char} {v : Datum} : Element cs v (']' :: rest) → Items cs [v] rest
  | cons {cs cs' rest : List Char} {v : Datum} {vs : List Datum} :
      Element cs v (',' :: cs') → Items cs' vs rest → Items cs (v :: vs) rest

/-- The members of an object up to its closing brace. -/
inductive Members : List Char → List (String × Datum) → List Char → Prop
  | last {cs cs₁ rest : List Char} {name : String} {v : Datum} :
      Name cs name cs₁ → Element cs₁ v ('\x7d' :: rest) → Members cs [(name, v)] rest
  | cons {cs cs₁ cs₂ rest : List Char} {name : String} {v : Datum}
      {ms : List (String × Datum)} :
      Name cs name cs₁ → Element cs₁ v (',' :: cs₂) → Members cs₂ ms rest →
      Members cs ((name, v) :: ms) rest

end

/-- A whole text that denotes a value. -/
def Document (cs : List Char) (v : Datum) : Prop := Element cs v []

variable {c c' : Char} {k k' : Nat} {cs ds ds' fs fs' rest rest' s s' : List Char} {v v' : Datum} {x x' : Int}
  {o o' : Option Int}

/-! ## What remains

A row of digits or of blanks is read to its end, so nothing of its kind may remain. -/

/-- No character of the kind `p` comes first. -/
def Past (p : Char → Bool) (cs : List Char) : Prop := ∀ c ∈ cs.head?, p c = false

@[simp] theorem past_nil (p : Char → Bool) : Past p [] := nofun

@[simp] theorem past_cons {p : Char → Bool} : Past p (c :: cs) ↔ p c = false := by
  simp [Past]

theorem Past.mono {p q : Char → Bool} (h : ∀ c, q c = true → p c = true) (hp : Past p cs) :
    Past q cs := by
  intro c hc
  have hpc := hp c hc
  cases hq : q c with
  | true => rw [h c hq] at hpc; cases hpc
  | false => rfl

theorem Past.of_not {p q : Char → Bool} (h : ∀ c, q c = true → p c = false)
    (hp : ¬ Past p cs) : Past q cs := by
  intro c hc
  cases hq : q c with
  | false => rfl
  | true =>
    obtain ⟨rest, rfl⟩ := List.head?_eq_some_iff.1 hc
    exact absurd (past_cons.2 (h c hq)) hp

theorem Blanks.unique (h : Blanks cs rest) (h' : Blanks cs rest') (hr : Past isSpace rest)
    (hr' : Past isSpace rest') : rest = rest' := by
  induction h with
  | nil =>
    cases h' with
    | nil => rfl
    | cons hc => rw [past_cons.1 hr] at hc; cases hc
  | cons hc _ ih =>
    cases h' with
    | nil => rw [past_cons.1 hr'] at hc; cases hc
    | cons _ h' => exact ih h' hr

/-! ## Numbers are read in one way -/

theorem Digits.not_past (h : Digits cs ds rest) : ¬ Past Char.isDigit cs := by
  intro hp
  cases h with
  | last hc => rw [past_cons.1 hp] at hc; cases hc
  | cons hc => rw [past_cons.1 hp] at hc; cases hc

theorem Digits.unique (h : Digits cs ds rest) (h' : Digits cs ds' rest')
    (hr : Past Char.isDigit rest) (hr' : Past Char.isDigit rest') : ds = ds' ∧ rest = rest' := by
  induction h generalizing ds' with
  | last =>
    cases h' with
    | last => exact ⟨rfl, rfl⟩
    | cons _ h' => exact absurd hr h'.not_past
  | cons _ h ih =>
    cases h' with
    | last => exact absurd hr' h.not_past
    | cons _ h' =>
      obtain ⟨rfl, rfl⟩ := ih h' hr
      exact ⟨rfl, rfl⟩

theorem Minus.unique (h : Minus cs x rest) (h' : Minus cs x' rest')
    (hr : ¬ Past Char.isDigit rest) (hr' : ¬ Past Char.isDigit rest') :
    x = x' ∧ rest = rest' := by
  cases h with
  | absent =>
    cases h' with
    | absent => exact ⟨rfl, rfl⟩
    | present => exact absurd (past_cons.2 (by decide)) hr
  | present =>
    cases h' with
    | absent => exact absurd (past_cons.2 (by decide)) hr'
    | present => exact ⟨rfl, rfl⟩

theorem Sign.unique (h : Sign cs x rest) (h' : Sign cs x' rest')
    (hr : ¬ Past Char.isDigit rest) (hr' : ¬ Past Char.isDigit rest') :
    x = x' ∧ rest = rest' := by
  cases h with
  | plus =>
    cases h' with
    | plus => exact ⟨rfl, rfl⟩
    | minus h' =>
      cases h' with
      | absent => exact absurd (past_cons.2 (by decide)) hr'
  | minus h =>
    cases h' with
    | plus =>
      cases h with
      | absent => exact absurd (past_cons.2 (by decide)) hr
    | minus h' => exact h.unique h' hr hr'

theorem Whole.not_past (h : Whole cs ds rest) : ¬ Past Char.isDigit cs := by
  cases h with
  | zero => intro hp; exact absurd (past_cons.1 hp) (by decide)
  | digits _ h => exact h.not_past

theorem Whole.unique (h : Whole cs ds rest) (h' : Whole cs ds' rest')
    (hr : Past Char.isDigit rest) (hr' : Past Char.isDigit rest') : ds = ds' ∧ rest = rest' := by
  cases h with
  | zero =>
    cases h' with
    | zero => exact ⟨rfl, rfl⟩
    | digits hc => exact absurd rfl hc
  | digits hc h =>
    cases h' with
    | zero => exact absurd rfl hc
    | digits _ h' => exact h.unique h' hr hr'

/-- The characters with which a number could go on. -/
def goesOn (c : Char) : Bool := c.isDigit || c = '.' || c = 'e' || c = 'E'

/-- The characters with which a number could go on, if it has no power. -/
def goesOnPlain (c : Char) : Bool := c.isDigit || c = '.'

theorem goesOn_of_plain (h : goesOnPlain c = true) : goesOn c = true := by
  unfold goesOnPlain at h
  rw [goesOn, h]
  rfl

theorem plain_of_isDigit (h : c.isDigit = true) : goesOnPlain c = true := by
  rw [goesOnPlain, h]
  rfl

theorem Power.past (h : Power cs o rest) (hr : Past goesOn rest) : Past goesOnPlain cs := by
  cases h with
  | absent => exact hr.mono fun _ => goesOn_of_plain
  | present hc =>
    rw [past_cons]
    rcases hc with rfl | rfl <;> rfl

theorem Fraction.past (h : Fraction cs fs rest) (hr : Past goesOnPlain rest) :
    Past Char.isDigit cs := by
  cases h with
  | absent => exact hr.mono fun _ => plain_of_isDigit
  | present => exact past_cons.2 rfl

theorem Power.unique (h : Power cs o rest) (h' : Power cs o' rest') (hr : Past goesOn rest)
    (hr' : Past goesOn rest') : o = o' ∧ rest = rest' := by
  have hdigit : ∀ c, c.isDigit = true → goesOn c = true := fun _ hc =>
    goesOn_of_plain (plain_of_isDigit hc)
  cases h with
  | absent =>
    cases h' with
    | absent => exact ⟨rfl, rfl⟩
    | present hc =>
      rw [past_cons] at hr
      rcases hc with rfl | rfl <;> cases hr
  | present hc hs hd =>
    cases h' with
    | absent =>
      rw [past_cons] at hr'
      rcases hc with rfl | rfl <;> cases hr'
    | present _ hs' hd' =>
      obtain ⟨rfl, rfl⟩ := hs.unique hs' hd.not_past hd'.not_past
      obtain ⟨rfl, rfl⟩ := hd.unique hd' (hr.mono hdigit) (hr'.mono hdigit)
      exact ⟨rfl, rfl⟩

theorem Fraction.unique (h : Fraction cs fs rest) (h' : Fraction cs fs' rest')
    (hr : Past goesOnPlain rest) (hr' : Past goesOnPlain rest') : fs = fs' ∧ rest = rest' := by
  cases h with
  | absent =>
    cases h' with
    | absent => exact ⟨rfl, rfl⟩
    | present => cases past_cons.1 hr
  | present h =>
    cases h' with
    | absent => cases past_cons.1 hr'
    | present h' =>
      exact h.unique h' (hr.mono fun _ => plain_of_isDigit) (hr'.mono fun _ => plain_of_isDigit)

theorem Number.unique (h : Number cs v rest) (h' : Number cs v' rest') (hr : Past goesOn rest)
    (hr' : Past goesOn rest') : v = v' ∧ rest = rest' := by
  obtain ⟨hm, hw, hf, hp⟩ := h
  obtain ⟨hm', hw', hf', hp'⟩ := h'
  -- Each part is read to its end, for what follows it cannot belong to it.
  obtain ⟨rfl, rfl⟩ := hm.unique hm' hw.not_past hw'.not_past
  obtain ⟨rfl, rfl⟩ := hw.unique hw' (hf.past (hp.past hr)) (hf'.past (hp'.past hr'))
  obtain ⟨rfl, rfl⟩ := hf.unique hf' (hp.past hr) (hp'.past hr')
  obtain ⟨rfl, rfl⟩ := hp.unique hp' hr hr'
  exact ⟨rfl, rfl⟩

/-! ## Strings are read in one way -/

theorem Hex.unique (h : Hex cs k rest) (h' : Hex cs k' rest') : k = k' ∧ rest = rest' := by
  obtain ⟨h₁, h₂, h₃, h₄⟩ := h
  obtain ⟨h₁', h₂', h₃', h₄'⟩ := h'
  cases h₁.symm.trans h₁'
  cases h₂.symm.trans h₂'
  cases h₃.symm.trans h₃'
  cases h₄.symm.trans h₄'
  exact ⟨rfl, rfl⟩

/-- No character is a surrogate. -/
theorem toNat_ne_surrogate (c : Char) {k : Nat} (hk : k < 0x400) : c.toNat ≠ 0xd800 + k := by
  have hc : c.toNat < 0xd800 ∨ 0xdfff < c.toNat ∧ c.toNat < 0x110000 := c.valid
  omega

theorem Escape.unique (h : Escape cs c rest) (h' : Escape cs c' rest') : c = c' ∧ rest = rest' := by
  cases h with
  | short hc =>
    cases h' with
    | short hc' => exact ⟨Option.some.inj (hc.symm.trans hc'), rfl⟩
    | single => cases hc
    | pair => cases hc
  | single hx =>
    cases h' with
    | short hc => cases hc
    | single hx' =>
      obtain ⟨hc, rfl⟩ := hx.unique hx'
      exact ⟨Char.toNat_inj.1 hc, rfl⟩
    | pair hx' hlt =>
      exact absurd (hx.unique hx').1 (toNat_ne_surrogate _ hlt)
  | pair hx hlt hy hlt' hc =>
    cases h' with
    | short hc => cases hc
    | single hx' =>
      exact absurd (hx.unique hx').1.symm (toNat_ne_surrogate _ hlt)
    | pair hx' _ hy' _ hc' =>
      obtain ⟨hhi, hcs⟩ := hx.unique hx'
      cases hcs
      obtain ⟨hlo, rfl⟩ := hy.unique hy'
      refine ⟨Char.toNat_inj.1 ?_, rfl⟩
      omega

theorem Letters.unique (h : Letters cs s rest) (h' : Letters cs s' rest') :
    s = s' ∧ rest = rest' := by
  induction h generalizing s' with
  | close =>
    cases h' with
    | close => exact ⟨rfl, rfl⟩
    | plain _ hc => exact absurd rfl hc
  | plain _ hq hb _ ih =>
    cases h' with
    | close => exact absurd rfl hq
    | plain _ _ _ h' =>
      obtain ⟨rfl, rfl⟩ := ih h'
      exact ⟨rfl, rfl⟩
    | escape => exact absurd rfl hb
  | escape he _ ih =>
    cases h' with
    | plain _ _ hb => exact absurd rfl hb
    | escape he' h' =>
      obtain ⟨rfl, rfl⟩ := he.unique he'
      obtain ⟨rfl, rfl⟩ := ih h'
      exact ⟨rfl, rfl⟩

theorem Name.unique {x x' : String} (h : Name cs x rest) (h' : Name cs x' rest') :
    x = x' ∧ rest = rest' := by
  obtain ⟨hb, hs, hb'⟩ := h
  obtain ⟨hc, hs', hc'⟩ := h'
  cases hb.unique hc (past_cons.2 rfl) (past_cons.2 rfl)
  obtain ⟨rfl, rfl⟩ := hs.unique hs'
  cases hb'.unique hc' (past_cons.2 rfl) (past_cons.2 rfl)
  exact ⟨rfl, rfl⟩

/-! ## Values are read in one way -/

/-- The characters with which a value can begin. -/
def begins (c : Char) : Bool :=
  c.isDigit || c = '-' || c = '"' || c = '[' || c = '\x7b' || c = 'n' || c = 't' || c = 'f'

theorem Number.not_past (h : Number cs v rest) :
    ¬ Past (fun c => c.isDigit || c = '-') cs := by
  obtain ⟨hm, hw, -, -⟩ := h
  intro hp
  cases hm with
  | absent =>
    apply hw.not_past
    apply hp.mono
    intro c hc
    rw [hc]
    rfl
  | present => cases past_cons.1 hp

theorem Value.not_past (h : Value cs v rest) : ¬ Past begins cs := by
  cases h with
  | number h =>
    intro hp
    apply h.not_past
    apply hp.mono
    intro c hc
    rw [begins, hc]
    rfl
  | _ =>
    intro hp
    cases past_cons.1 hp

theorem isSpace_iff : isSpace c = true ↔ c = ' ' ∨ c = '\t' ∨ c = '\n' ∨ c = '\r' := by
  simp [isSpace, or_assoc]

theorem Value.past_space (h : Value cs v rest) : Past isSpace cs := by
  apply Past.of_not _ h.not_past
  intro c hc
  rcases isSpace_iff.1 hc with rfl | rfl | rfl | rfl <;> rfl

/-- The characters that could belong to an element if they stood behind it. -/
def clings (c : Char) : Bool := isSpace c || goesOn c

theorem clings_of_isSpace (h : isSpace c = true) : clings c = true := by
  rw [clings, h]
  rfl

theorem clings_of_goesOn (h : goesOn c = true) : clings c = true := by
  rw [clings, h, Bool.or_true]

theorem Blanks.past_goesOn (h : Blanks cs rest) (hr : Past clings rest) : Past goesOn cs := by
  cases h with
  | nil => exact hr.mono fun _ => clings_of_goesOn
  | cons hc =>
    rw [past_cons]
    rcases isSpace_iff.1 hc with rfl | rfl | rfl | rfl <;> rfl

/-- Where an element begins, no closing bracket comes next. -/
theorem Items.not_blanks {vs : List Datum} (h : Items cs vs rest) :
    ¬ Blanks cs (']' :: rest') := by
  intro hb
  have habsurd : ∀ {v rest}, ¬ Element cs v rest := by
    intro v rest h
    obtain ⟨hb', hv, -⟩ := h
    cases hb'.unique hb hv.past_space (past_cons.2 rfl)
    exact hv.not_past (past_cons.2 rfl)
  cases h with
  | last he => exact habsurd he
  | cons he => exact habsurd he

theorem Members.not_blanks {ms : List (String × Datum)} (h : Members cs ms rest) :
    ¬ Blanks cs ('\x7d' :: rest') := by
  intro hb
  have habsurd : ∀ {name rest}, ¬ Name cs name rest := by
    intro name rest h
    obtain ⟨hb', -, -⟩ := h
    cases hb'.unique hb (past_cons.2 rfl) (past_cons.2 rfl)
  cases h with
  | last hn => exact habsurd hn
  | cons hn => exact habsurd hn

/-! The first character tells the values apart, the empty list and the empty object
excepted. -/

theorem Value.inv_number (h : Value cs v rest)
    (hp : ¬ Past (fun c => c.isDigit || c = '-') cs) : Number cs v rest := by
  cases h with
  | number h => exact h
  | _ => exact absurd (past_cons.2 rfl) hp

theorem Value.inv_null (h : Value ('n' :: cs) v rest) :
    cs = 'u' :: 'l' :: 'l' :: rest ∧ v = .null := by
  cases h with
  | null => exact ⟨rfl, rfl⟩
  | number h => exact absurd (past_cons.2 rfl) h.not_past

theorem Value.inv_true (h : Value ('t' :: cs) v rest) :
    cs = 'r' :: 'u' :: 'e' :: rest ∧ v = .truth Bool.true := by
  cases h with
  | true => exact ⟨rfl, rfl⟩
  | number h => exact absurd (past_cons.2 rfl) h.not_past

theorem Value.inv_false (h : Value ('f' :: cs) v rest) :
    cs = 'a' :: 'l' :: 's' :: 'e' :: rest ∧ v = .truth Bool.false := by
  cases h with
  | false => exact ⟨rfl, rfl⟩
  | number h => exact absurd (past_cons.2 rfl) h.not_past

theorem Value.inv_text (h : Value ('"' :: cs) v rest) :
    ∃ s, Letters cs s rest ∧ v = .text (String.ofList s) := by
  cases h with
  | text h => exact ⟨_, h, rfl⟩
  | number h => exact absurd (past_cons.2 rfl) h.not_past

theorem Value.inv_list (h : Value ('[' :: cs) v rest) :
    (Blanks cs (']' :: rest) ∧ v = .list []) ∨ ∃ vs, Items cs vs rest ∧ v = .list vs := by
  cases h with
  | nil h => exact .inl ⟨h, rfl⟩
  | list h => exact .inr ⟨_, h, rfl⟩
  | number h => exact absurd (past_cons.2 rfl) h.not_past

theorem Value.inv_object (h : Value ('\x7b' :: cs) v rest) :
    (Blanks cs ('\x7d' :: rest) ∧ v = .object []) ∨
      ∃ ms, Members cs ms rest ∧ v = .object ms := by
  cases h with
  | empty h => exact .inl ⟨h, rfl⟩
  | object h => exact .inr ⟨_, h, rfl⟩
  | number h => exact absurd (past_cons.2 rfl) h.not_past

theorem Blanks.unique_cons {d : Char} (h : Blanks cs (d :: rest)) (h' : Blanks cs (d :: rest'))
    (hd : isSpace d = false) : rest = rest' :=
  (List.cons.inj (h.unique h' (past_cons.2 hd) (past_cons.2 hd))).2

theorem isSpace_bracket : isSpace ']' = false := by decide

theorem isSpace_brace : isSpace '\x7d' = false := by decide

theorem clings_comma : clings ',' = false := by decide

theorem clings_bracket : clings ']' = false := by decide

theorem clings_brace : clings '\x7d' = false := by decide

theorem comma_ne_bracket : ',' ≠ ']' := by decide

theorem comma_ne_brace : ',' ≠ '\x7d' := by decide

mutual

theorem Value.unique {cs rest rest' : List Char} {v v' : Datum} (h : Value cs v rest)
    (h' : Value cs v' rest') (hr : Past goesOn rest) (hr' : Past goesOn rest') :
    v = v' ∧ rest = rest' := by
  match h with
  | .number h => exact h.unique (h'.inv_number h.not_past) hr hr'
  | .null =>
    obtain ⟨hcs, rfl⟩ := h'.inv_null
    cases hcs
    exact ⟨rfl, rfl⟩
  | .true =>
    obtain ⟨hcs, rfl⟩ := h'.inv_true
    cases hcs
    exact ⟨rfl, rfl⟩
  | .false =>
    obtain ⟨hcs, rfl⟩ := h'.inv_false
    cases hcs
    exact ⟨rfl, rfl⟩
  | .text h =>
    obtain ⟨s, hs, rfl⟩ := h'.inv_text
    obtain ⟨rfl, rfl⟩ := h.unique hs
    exact ⟨rfl, rfl⟩
  | .nil h =>
    rcases h'.inv_list with ⟨hb, rfl⟩ | ⟨vs, hi, rfl⟩
    · exact ⟨rfl, h.unique_cons hb isSpace_bracket⟩
    · exact absurd h hi.not_blanks
  | .list h =>
    rcases h'.inv_list with ⟨hb, rfl⟩ | ⟨vs, hi, rfl⟩
    · exact absurd hb h.not_blanks
    · obtain ⟨rfl, rfl⟩ := h.unique hi
      exact ⟨rfl, rfl⟩
  | .empty h =>
    rcases h'.inv_object with ⟨hb, rfl⟩ | ⟨ms, hm, rfl⟩
    · exact ⟨rfl, h.unique_cons hb isSpace_brace⟩
    · exact absurd h hm.not_blanks
  | .object h =>
    rcases h'.inv_object with ⟨hb, rfl⟩ | ⟨ms, hm, rfl⟩
    · exact absurd hb h.not_blanks
    · obtain ⟨rfl, rfl⟩ := h.unique hm
      exact ⟨rfl, rfl⟩
termination_by structural h

theorem Element.unique {cs rest rest' : List Char} {v v' : Datum} (h : Element cs v rest)
    (h' : Element cs v' rest') (hr : Past clings rest) (hr' : Past clings rest') :
    v = v' ∧ rest = rest' := by
  match h with
  | .mk hb hv he =>
    obtain ⟨hb', hv', he'⟩ := h'
    obtain rfl := hb.unique hb' hv.past_space hv'.past_space
    obtain ⟨rfl, rfl⟩ := hv.unique hv' (he.past_goesOn hr) (he'.past_goesOn hr')
    exact ⟨rfl, he.unique he' (hr.mono fun _ => clings_of_isSpace)
      (hr'.mono fun _ => clings_of_isSpace)⟩
termination_by structural h

theorem Items.unique {cs rest rest' : List Char} {vs vs' : List Datum} (h : Items cs vs rest)
    (h' : Items cs vs' rest') : vs = vs' ∧ rest = rest' := by
  match h with
  | .last he =>
    cases h' with
    | last he' =>
      obtain ⟨rfl, hr⟩ := he.unique he' (past_cons.2 clings_bracket) (past_cons.2 clings_bracket)
      exact ⟨rfl, (List.cons.inj hr).2⟩
    | cons he' =>
      obtain ⟨-, hr⟩ := he.unique he' (past_cons.2 clings_bracket) (past_cons.2 clings_comma)
      exact absurd (List.cons.inj hr).1.symm comma_ne_bracket
  | .cons he hi =>
    cases h' with
    | last he' =>
      obtain ⟨-, hr⟩ := he.unique he' (past_cons.2 clings_comma) (past_cons.2 clings_bracket)
      exact absurd (List.cons.inj hr).1 comma_ne_bracket
    | cons he' hi' =>
      obtain ⟨rfl, hr⟩ := he.unique he' (past_cons.2 clings_comma) (past_cons.2 clings_comma)
      obtain rfl := (List.cons.inj hr).2
      obtain ⟨rfl, rfl⟩ := hi.unique hi'
      exact ⟨rfl, rfl⟩
termination_by structural h

theorem Members.unique {cs rest rest' : List Char} {ms ms' : List (String × Datum)}
    (h : Members cs ms rest) (h' : Members cs ms' rest') : ms = ms' ∧ rest = rest' := by
  match h with
  | .last hn he =>
    cases h' with
    | last hn' he' =>
      obtain ⟨rfl, rfl⟩ := hn.unique hn'
      obtain ⟨rfl, hr⟩ := he.unique he' (past_cons.2 clings_brace) (past_cons.2 clings_brace)
      exact ⟨rfl, (List.cons.inj hr).2⟩
    | cons hn' he' =>
      obtain ⟨rfl, rfl⟩ := hn.unique hn'
      obtain ⟨-, hr⟩ := he.unique he' (past_cons.2 clings_brace) (past_cons.2 clings_comma)
      exact absurd (List.cons.inj hr).1.symm comma_ne_brace
  | .cons hn he hm =>
    cases h' with
    | last hn' he' =>
      obtain ⟨rfl, rfl⟩ := hn.unique hn'
      obtain ⟨-, hr⟩ := he.unique he' (past_cons.2 clings_comma) (past_cons.2 clings_brace)
      exact absurd (List.cons.inj hr).1 comma_ne_brace
    | cons hn' he' hm' =>
      obtain ⟨rfl, rfl⟩ := hn.unique hn'
      obtain ⟨rfl, hr⟩ := he.unique he' (past_cons.2 clings_comma) (past_cons.2 clings_comma)
      obtain rfl := (List.cons.inj hr).2
      obtain ⟨rfl, rfl⟩ := hm.unique hm'
      exact ⟨rfl, rfl⟩
termination_by structural h

end

/-- **A text is one document at most.** -/
theorem Document.unique (h : Document cs v) (h' : Document cs v') : v = v' :=
  (Element.unique h h' (past_nil _) (past_nil _)).1

end Stepwise.Grammar
