import Stepwise.Text.Blank
import Stepwise.Text.Digit

/-!
# Numerals

Integers are written in decimal without a leading zero (`write`), however long the row of
digits gets.

The numerals that are READ (`read?`) are more liberal: blanks around the numeral are
dropped, one sign may stand directly before the digits, a single underscore may stand
between two digits, and the digits may be those of any script, or of several.
-/

namespace Stepwise.Numeral

/-! ## Writing -/

/-- The character of a digit below ten. -/
def digitChar (d : Nat) : Char := Char.ofNat (48 + d)

/-- The decimal digits of `n`, most significant first. -/
def digits (n : Nat) : List Char :=
  if n < 10 then [digitChar n] else digits (n / 10) ++ [digitChar (n % 10)]
termination_by n
decreasing_by omega

/-- An integer in decimal, a minus sign before a negative one. -/
def write : Int → String
  | .ofNat n => String.ofList (digits n)
  | .negSucc n => String.ofList ('-' :: digits (n + 1))

theorem digitChar_eq : ∀ d < 10, digitChar d = Nat.digitChar d := by decide

theorem digits_eq_toDigits (n : Nat) : digits n = Nat.toDigits 10 n := by
  fun_induction digits n with
  | case1 n hn => rw [Nat.toDigits_of_lt_base hn, digitChar_eq n hn]
  | case2 n hn ih =>
    rw [Nat.toDigits_eq_if (by decide), if_neg hn, ih, digitChar_eq _ (Nat.mod_lt n (by decide))]

/-- Integers are written in the usual decimal notation. -/
theorem write_eq_toString (n : Int) : write n = toString n := by
  rw [Int.toString_eq_repr]
  cases n with
  | ofNat n => rw [write, digits_eq_toDigits, Int.repr, Nat.repr_eq_ofList_toDigits]
  | negSucc n =>
    rw [write, digits_eq_toDigits, Int.repr, Nat.repr_eq_ofList_toDigits, ← List.singleton_append,
      String.ofList_append]

/-! ## Reading -/

/-- Reads the digits that follow a digit, `n` being the value so far. -/
def readRest? (n : Nat) : List Char → Option Nat
  | [] => some n
  | '_' :: c :: rest => (Digit.value? c).bind fun d => readRest? (10 * n + d) rest
  | c :: rest => (Digit.value? c).bind fun d => readRest? (10 * n + d) rest

/-- Reads a nonempty row of digits, with single underscores between them. -/
def readDigits? : List Char → Option Nat
  | [] => none
  | c :: rest => (Digit.value? c).bind fun d => readRest? d rest

/-- Reads an integer, or gives nothing if the text is no numeral. -/
def read? (s : String) : Option Int :=
  match Blank.trim s.toList with
  | '-' :: rest => (readDigits? rest).map fun n => -(n : Int)
  | '+' :: rest => (readDigits? rest).map fun n => (n : Int)
  | rest => (readDigits? rest).map fun n => (n : Int)

end Stepwise.Numeral
