import Stepwise.Command.Count
import Stepwise.Command.Page

/-!
# Ends of reading

Reading a command line can end before its last word: with the help of a page, with the
version, or with a page's complaint about a misuse of its words.
-/

namespace Stepwise.Command

/-- What can be wrong with the words of a command line. -/
inductive Misuse
  | ambiguous (word : String) (spellings : List String)
  | noValue (f : Flag)
  /-- Text is joined to a flag that takes no value. -/
  | strayValue (f : Flag) (value : String)
  | unknownFormat (name : String)
  | badLimit (e : CountError)
  | unknownCommand (word : String)
  | noName
  | leftOver (words : List String)
  deriving DecidableEq

/-- The choices that a report offers. -/
def choices (names : List String) : String :=
  "(choose from " ++ Text.joinWith ", " (names.map Quoted.quote) ++ ")"

def Misuse.message : Misuse → String
  | ambiguous word spellings =>
    "ambiguous option: " ++ word ++ " could match " ++ Text.joinWith ", " spellings
  | noValue f => "argument " ++ f.label ++ ": expected one argument"
  | strayValue f value =>
    "argument " ++ f.label ++ ": ignored explicit argument " ++ Quoted.quote value
  | unknownFormat name =>
    "argument " ++ Flag.format.label ++ ": invalid choice: " ++ Quoted.quote name ++ " "
      ++ choices (Format.all.map Format.name)
  | badLimit e => "argument " ++ Flag.limit.label ++ ": " ++ e.message
  | unknownCommand word =>
    "argument command: invalid choice: " ++ Quoted.quote word ++ " "
      ++ choices (Page.commands.map (·.1))
  | noName => "the following arguments are required: name"
  | leftOver words => "unrecognized arguments: " ++ Text.joinWith " " words

/-- Why reading ends before the last word. -/
inductive End
  | help (p : Page)
  | version
  | misuse (p : Page) (m : Misuse)
  deriving DecidableEq

end Stepwise.Command
