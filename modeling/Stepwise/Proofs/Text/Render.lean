import Stepwise.Text.Json
import Stepwise.Proofs.Text.Grammar

/-!
# Printed JSON denotes what was printed

`Json.datum` takes a value to what it denotes in the grammar, the order of the members
included, and no two values to the same. In whatever layout a value is printed, the text is
a document that denotes it (`document_render`), and nothing else.

Main statement: `document_render_iff`.
-/

namespace Stepwise

open Grammar

/-! ## Numerals -/

namespace Numeral

theorem digitChar_isDigit : ∀ d < 10, (digitChar d).isDigit = true := by decide

theorem digitChar_value : ∀ d < 10, (digitChar d).toNat - '0'.toNat = d := by decide

theorem digitChar_ne_zero : ∀ d < 10, d ≠ 0 → digitChar d ≠ '0' := by decide

/-- The digits of a number give its value. -/
theorem ofDigitChars_digits (n : Nat) : Nat.ofDigitChars 10 (digits n) 0 = n := by
  fun_induction digits n with
  | case1 n hn =>
    rw [Nat.ofDigitChars_cons, Nat.ofDigitChars_nil, digitChar_value n hn]
    omega
  | case2 n hn ih =>
    rw [Nat.ofDigitChars_append, ih, Nat.ofDigitChars_cons, Nat.ofDigitChars_nil,
      digitChar_value _ (Nat.mod_lt n (by decide))]
    omega

theorem isDigit_digits (n : Nat) : ∀ c ∈ digits n, c.isDigit = true := by
  fun_induction digits n with
  | case1 n hn =>
    intro c hc
    rw [List.mem_singleton.1 hc]
    exact digitChar_isDigit n hn
  | case2 n hn ih =>
    intro c hc
    rcases List.mem_append.1 hc with hc | hc
    · exact ih c hc
    · rw [List.mem_singleton.1 hc]
      exact digitChar_isDigit _ (Nat.mod_lt n (by decide))

/-- The digits of a number other than zero have no zero in front. -/
theorem digits_eq_cons {n : Nat} (hn : n ≠ 0) : ∃ c ds, digits n = c :: ds ∧ c ≠ '0' := by
  fun_induction digits n with
  | case1 n hlt => exact ⟨_, [], rfl, digitChar_ne_zero n hlt hn⟩
  | case2 n hlt ih =>
    obtain ⟨c, ds, hds, hc⟩ := ih (by omega)
    rw [hds]
    exact ⟨c, _, rfl, hc⟩

end Numeral

namespace Json

mutual

/-- What a value denotes. -/
def datum : Json → Datum
  | null => .null
  | int n => .int n
  | text s => .text s
  | list items => .list (itemData items)
  | object members => .object (memberData members)

def itemData : List Json → List Datum
  | [] => []
  | item :: items => item.datum :: itemData items

def memberData : List (String × Json) → List (String × Datum)
  | [] => []
  | (name, value) :: members => (name, value.datum) :: memberData members

end

theorem itemData_eq_map (items : List Json) : itemData items = items.map datum := by
  induction items with
  | nil => rfl
  | cons item items ih => rw [itemData, ih, List.map_cons]

theorem memberData_eq_map (members : List (String × Json)) :
    memberData members = members.map fun p => (p.1, p.2.datum) := by
  induction members with
  | nil => rfl
  | cons p members ih => rw [memberData, ih, List.map_cons]

theorem datum_getD_null (v : Option Json) :
    (v.getD .null).datum = (v.map datum).getD .null := by
  cases v <;> rfl

variable {rest : List Char} {layout : Layout} {n : Nat}

mutual

theorem datum_inj (v : Json) {w : Json} (h : v.datum = w.datum) : v = w := by
  match v with
  | null => cases w <;> simp_all [datum]
  | int _ => cases w <;> simp_all [datum]
  | text _ => cases w <;> simp_all [datum]
  | list items =>
    cases w with
    | list items' =>
      simp only [datum, Datum.list.injEq] at h
      rw [itemData_inj items h]
    | _ => simp [datum] at h
  | object members =>
    cases w with
    | object members' =>
      simp only [datum, Datum.object.injEq] at h
      rw [memberData_inj members h]
    | _ => simp [datum] at h
termination_by structural v

theorem itemData_inj (vs : List Json) {ws : List Json} (h : itemData vs = itemData ws) :
    vs = ws := by
  match vs with
  | [] => cases ws <;> simp_all [itemData]
  | v :: vs =>
    cases ws with
    | nil => simp [itemData] at h
    | cons w ws =>
      simp only [itemData, List.cons.injEq] at h
      rw [datum_inj v h.1, itemData_inj vs h.2]
termination_by structural vs

theorem memberData_inj (vs : List (String × Json)) {ws : List (String × Json)}
    (h : memberData vs = memberData ws) : vs = ws := by
  match vs with
  | [] => cases ws <;> simp_all [memberData]
  | (x, v) :: vs =>
    cases ws with
    | nil => simp [memberData] at h
    | cons w ws =>
      obtain ⟨y, w⟩ := w
      simp only [memberData, List.cons.injEq, Prod.mk.injEq] at h
      rw [h.1.1, datum_inj v h.1.2, memberData_inj vs h.2]
termination_by structural vs

end

/-! ## The parts of a text -/

theorem digits_of_forall {ds : List Char} (hne : ds ≠ [])
    (h : ∀ c ∈ ds, c.isDigit = true) : Digits (ds ++ rest) ds rest := by
  induction ds with
  | nil => exact absurd rfl hne
  | cons c ds ih =>
    have hc : c.isDigit = true := h c List.mem_cons_self
    cases ds with
    | nil => exact .last hc
    | cons d ds => exact .cons hc (ih nofun fun d hd => h d (List.mem_cons_of_mem _ hd))

theorem blanks_of_forall {cs : List Char} (h : ∀ c ∈ cs, isSpace c = true) :
    Blanks (cs ++ rest) rest := by
  induction cs with
  | nil => exact .nil
  | cons c cs ih =>
    exact .cons (h c List.mem_cons_self) (ih fun d hd => h d (List.mem_cons_of_mem _ hd))

theorem whole_digits (n : Nat) (rest : List Char) :
    Whole (Numeral.digits n ++ rest) (Numeral.digits n) rest := by
  by_cases hn : n = 0
  · subst hn
    have hzero : Numeral.digits 0 = ['0'] := by decide +kernel
    rw [hzero]
    exact .zero
  · obtain ⟨c, ds, hds, hc⟩ := Numeral.digits_eq_cons hn
    have hdigits : Digits (Numeral.digits n ++ rest) (Numeral.digits n) rest :=
      digits_of_forall (by rw [hds]; exact nofun) (Numeral.isDigit_digits n)
    rw [hds] at hdigits ⊢
    exact .digits hc hdigits

/-- A numeral without a point and a power is an integer. -/
theorem number_of_whole {cs cs' : List Char} {s : Int} {k : Nat} (hs : Minus cs s cs')
    (hw : Whole cs' (Numeral.digits k) rest) : Number cs (.int (s * k)) rest := by
  have hnumber := Number.mk hs hw .absent .absent
  rw [numeral, Numeral.ofDigitChars_digits] at hnumber
  exact hnumber

theorem number_write (i : Int) : Number ((Numeral.write i).toList ++ rest) (.int i) rest := by
  cases i with
  | ofNat k =>
    have hnumber := number_of_whole .absent (whole_digits k rest)
    rw [Int.one_mul] at hnumber
    rw [Numeral.write, String.toList_ofList]
    exact hnumber
  | negSucc k =>
    have hnumber := number_of_whole .present (whole_digits (k + 1) rest)
    rw [Int.neg_one_mul] at hnumber
    rw [Numeral.write, String.toList_ofList]
    exact hnumber

theorem hexValue_hexDigit : ∀ d < 16, hexValue? (Quoted.hexDigit d) = some d := by decide

/-- An escaped character is read as itself. -/
theorem letters_escape {cs s : List Char} (c : Char) (h : Letters cs s rest) :
    Letters (escape c ++ cs) (c :: s) rest := by
  unfold escape
  split
  · subst_vars; exact .escape (.short rfl) h
  split
  · subst_vars; exact .escape (.short rfl) h
  split
  · subst_vars; exact .escape (.short rfl) h
  split
  · subst_vars; exact .escape (.short rfl) h
  split
  · subst_vars; exact .escape (.short rfl) h
  split
  · subst_vars; exact .escape (.short rfl) h
  split
  · subst_vars; exact .escape (.short rfl) h
  split
  · rename_i hc
    have hhex : Hex ('0' :: '0' :: Quoted.hexDigit (c.toNat / 16) ::
        Quoted.hexDigit (c.toNat % 16) :: cs) c.toNat cs := by
      have hfour : Hex _ _ cs := .mk (hexValue_hexDigit 0 (by decide))
        (hexValue_hexDigit 0 (by decide)) (hexValue_hexDigit (c.toNat / 16) (by omega))
        (hexValue_hexDigit (c.toNat % 16) (by omega))
      have hvalue : ((16 * 0 + 0) * 16 + c.toNat / 16) * 16 + c.toNat % 16 = c.toNat := by omega
      rw [hvalue] at hfour
      exact hfour
    exact .escape (.single hhex) h
  · exact .plain (by omega) (by assumption) (by assumption) h

theorem letters_quote (s : String) (rest : List Char) :
    Letters (s.toList.flatMap escape ++ '"' :: rest) s.toList rest := by
  induction s.toList with
  | nil => exact .close
  | cons c cs ih =>
    rw [List.flatMap_cons, List.append_assoc]
    exact letters_escape c ih

/-! ## Layout -/

theorem isSpace_newline (layout : Layout) (n : Nat) :
    ∀ c ∈ layout.newline n, isSpace c = true := by
  intro c hc
  cases layout with
  | inline => cases hc
  | block width =>
    rcases List.mem_cons.1 hc with rfl | hc
    · rfl
    · rw [List.eq_of_mem_replicate hc]
      rfl

/-- A comma has only blanks behind it. -/
theorem comma_eq_cons (layout : Layout) (n : Nat) :
    ∃ cs, layout.comma n = ',' :: cs ∧ ∀ c ∈ cs, isSpace c = true := by
  cases layout with
  | inline =>
    refine ⟨[' '], rfl, ?_⟩
    intro c hc
    rw [List.mem_singleton.1 hc]
    rfl
  | block width => exact ⟨_, rfl, isSpace_newline (.block width) n⟩

theorem name_quote {lead : List Char} (hlead : ∀ c ∈ lead, isSpace c = true) (name : String) :
    Name (lead ++ (quote name ++ ':' :: rest)) name rest := by
  have hname := Name.mk (blanks_of_forall hlead) (letters_quote name (':' :: rest)) .nil
  rw [String.ofList_toList] at hname
  simp only [quote, List.cons_append, List.append_assoc, List.nil_append]
  exact hname

/-! ## Values -/

mutual

theorem value_chars (layout : Layout) (n : Nat) (v : Json) (rest : List Char) :
    Grammar.Value (chars layout n v ++ rest) v.datum rest := by
  match v with
  | null => exact .null
  | int i => exact .number (number_write i)
  | text s =>
    have hs := Grammar.Value.text (letters_quote s rest)
    rw [String.ofList_toList] at hs
    simp only [chars, quote, List.cons_append, List.append_assoc, List.nil_append]
    exact hs
  | list [] => exact .nil .nil
  | list (item :: items) =>
    rw [chars]
    simp only [List.cons_append, List.append_assoc, List.nil_append]
    exact .list (items_itemChars layout n (n + 1) (isSpace_newline layout (n + 1))
      (value_chars layout (n + 1) item) items rest)
  | object [] => exact .empty .nil
  | object ((name, value) :: members) =>
    rw [chars]
    simp only [List.cons_append, List.append_assoc, List.nil_append]
    exact .object (members_memberChars layout n (n + 1) (isSpace_newline layout (n + 1)) name
      (value_chars layout (n + 1) value) members rest)
termination_by structural v

/-- The items after one that is already known. -/
theorem items_itemChars (layout : Layout) (k n : Nat) {lead item : List Char} {v : Datum}
    (hlead : ∀ c ∈ lead, isSpace c = true) (hitem : ∀ rest, Grammar.Value (item ++ rest) v rest)
    (items : List Json) (rest : List Char) :
    Items (lead ++ (item ++ (itemChars layout n items ++ (layout.newline k ++ ']' :: rest))))
      (v :: itemData items) rest := by
  match items with
  | [] =>
    exact .last ⟨blanks_of_forall hlead, hitem _, blanks_of_forall (isSpace_newline layout k)⟩
  | next :: items =>
    obtain ⟨cs, hcomma, hcs⟩ := comma_eq_cons layout n
    rw [itemChars, hcomma]
    simp only [List.cons_append, List.append_assoc]
    exact .cons ⟨blanks_of_forall hlead, hitem _, .nil⟩
      (items_itemChars layout k n hcs (value_chars layout n next) items rest)
termination_by structural items

/-- The members after one that is already known. -/
theorem members_memberChars (layout : Layout) (k n : Nat) {lead value : List Char} {v : Datum}
    (hlead : ∀ c ∈ lead, isSpace c = true) (name : String)
    (hvalue : ∀ rest, Grammar.Value (value ++ rest) v rest) (members : List (String × Json))
    (rest : List Char) :
    Members (lead ++ (quote name ++ ':' :: ' ' :: (value ++
      (memberChars layout n members ++ (layout.newline k ++ '\x7d' :: rest)))))
      ((name, v) :: memberData members) rest := by
  have hspace : isSpace ' ' = true := rfl
  match members with
  | [] =>
    exact .last (name_quote hlead name) ⟨.cons hspace .nil, hvalue _,
      blanks_of_forall (isSpace_newline layout k)⟩
  | (nextName, nextValue) :: members =>
    obtain ⟨cs, hcomma, hcs⟩ := comma_eq_cons layout n
    rw [memberChars, hcomma]
    simp only [List.cons_append, List.append_assoc, List.nil_append]
    exact .cons (name_quote hlead name) ⟨.cons hspace .nil, hvalue _, .nil⟩
      (members_memberChars layout k n hcs nextName (value_chars layout n nextValue) members rest)
termination_by structural members

end

theorem document_render (layout : Layout) (v : Json) :
    Document (v.render layout).toList v.datum := by
  have hv := value_chars layout 0 v []
  rw [List.append_nil] at hv
  rw [render, String.toList_ofList]
  exact ⟨.nil, hv, .nil⟩

/-- **A printed value denotes itself**, in every layout, and nothing else. -/
theorem document_render_iff (layout : Layout) (v : Json) (d : Datum) :
    Document (v.render layout).toList d ↔ d = v.datum := by
  constructor
  · intro h
    exact h.unique (document_render layout v)
  · rintro rfl
    exact document_render layout v

end Json

end Stepwise
