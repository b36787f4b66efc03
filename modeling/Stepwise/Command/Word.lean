import Stepwise.Command.Page
import Stepwise.Text.Digit

/-!
# The words of a command line

A page gives every word a role (`Page.role`): it is a flag of the page, without or with
text joined to it, an unknown flag, the divider, or plain. Whatever begins with a minus
sign is meant to be a flag, unless it is a lone minus sign, a negative number, or holds a
space. A long flag may be cut short as long as no other flag of the page begins so.
-/

namespace Stepwise.Command

/-- What a word is on a page. -/
inductive Role
  | plain
  /-- The word that ends the flags. -/
  | divider
  /-- A flag without a value joined to it. -/
  | flag (f : Flag)
  /-- A flag, spelled by one letter or not, with text joined to it. -/
  | joined (f : Flag) (letter : Bool) (text : String)
  /-- The beginning that several flags, in these spellings, have in common. -/
  | ambiguous (spellings : List String)
  | unknown
  deriving DecidableEq

/-- A row of at least one decimal digit. -/
def isDigits (cs : List Char) : Bool := !cs.isEmpty && cs.all Digit.isDigit

/-- A minus sign and a decimal number, with or without a fraction. A line end may
follow. -/
def isNegativeNumber (word : String) : Bool :=
  match word.toList with
  | '-' :: cs =>
    let cs := if cs.getLast? = some '\n' then cs.dropLast else cs
    isDigits cs
      || (match cs.dropWhile Digit.isDigit with
          | '.' :: fraction => isDigits fraction
          | _ => false)
  | _ => false

/-- The text before the first equals sign and the text behind it. -/
def splitAtEquals? (word : String) : Option (String × String) :=
  let cs := word.toList
  match cs.dropWhile (· != '=') with
  | [] => none
  | _ :: value => some (String.ofList (cs.takeWhile (· != '=')), String.ofList value)

/-- A flag, an equals sign and a value. -/
def Page.assigned? (p : Page) (word : String) : Option Role := do
  let (spelling, value) ← splitAtEquals? word
  let f ← p.flag? spelling
  return .joined f (spelling.length = 2) value

/-- A flag of one letter with its value joined to it. -/
def Page.attached? (p : Page) (word : String) : Option Role :=
  match word.toList with
  | '-' :: c :: value => (p.flag? (String.ofList ['-', c])).map fun f =>
      .joined f true (String.ofList value)
  | _ => none

/-- The flags of a page that begin with a text, in the spellings that do. -/
def Page.begunBy (p : Page) (start : String) : List (String × Flag) :=
  p.flags.filter fun q => start.toList.isPrefixOf q.1.toList

/-- A long flag that is cut short, without or with a value behind an equals sign. -/
def Page.shortened? (p : Page) (word : String) : Option Role :=
  if ['-', '-'].isPrefixOf word.toList then
    let (start, role) :=
      match splitAtEquals? word with
      | some (start, value) => (start, fun f => Role.joined f false value)
      | none => (word, Role.flag)
    match p.begunBy start with
    | [] => none
    | [q] => some (role q.2)
    | qs => some (.ambiguous (qs.map (·.1)))
  else none

def Page.role (p : Page) (word : String) : Role :=
  if word = "--" then .divider
  else if word.toList.head? != some '-' || word = "-" then .plain
  else
    match p.flag? word with
    | some f => .flag f
    | none =>
      (((p.assigned? word).or (p.attached? word)).or (p.shortened? word)).getD
        (if isNegativeNumber word || word.toList.contains ' ' then .plain else .unknown)

end Stepwise.Command
