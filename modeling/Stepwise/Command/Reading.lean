import Stepwise.Command.Misuse
import Stepwise.Command.Word

/-!
# Reading the words of a command line

The words of a page are read from left to right. A flag's value is joined to it or is the
next plain word. The first plain word of the main page is the command, which gets all
further words; the first plain word of a command that takes a name is that name. If a word
is the beginning of several flags of the page, nothing is read at all.

Behind the divider every word is plain. The divider itself disappears where it stands
directly before or after the name, and is left over everywhere else. Joined to a flag, it
disappears too, and the flag has a blank for a value.

Unknown flags, and plain words that nothing takes, are left over. They are reported
only once everything else has been read without a complaint.
-/

namespace Stepwise.Command

/-! ## Flags -/

/-- The complaint about the first word before the divider that is the beginning of
several flags, if there is one. -/
def Page.ambiguity? (p : Page) (words : List String) : Option End :=
  (words.takeWhile (· != "--")).findSome? fun w =>
    match p.role w with
    | .ambiguous spellings => some (.misuse p (.ambiguous w spellings))
    | _ => none

/-- Whether a word can be a value that stands apart from its flag. -/
def Page.isValue (p : Page) (word : String) : Bool := p.role word == .plain

/-- What comes of a row of one-letter flags behind a flag that takes no value. -/
inductive Cluster
  | complete
  /-- The last letter is a flag whose value is still to come. -/
  | wants (f : Flag)
  /-- This text is joined to a flag that takes no value. -/
  | stray (f : Flag) (text : List Char)
  deriving DecidableEq

/-- Reads the letters joined to the flag `f`, which takes no value. Each of them has to be
a flag; behind one that takes a value, the remaining letters are that value. -/
def Page.cluster (p : Page) (f : Flag) : List Char → Cluster
  | [] => .complete
  | c :: rest =>
    match p.flag? (String.ofList ['-', c]) with
    | none => .stray f (c :: rest)
    | some g =>
      if g.takesValue then
        if rest.isEmpty then .wants g else .complete
      else cluster p g rest

/-- The end that a flag without a value brings about. -/
def Page.finish (p : Page) : Flag → End
  | .version => .version
  | _ => .help p

/-- The end that a flag without a value brings about when text is joined to it, the
words in `rest` following. Behind a flag of one letter the text is a row of further
flags. -/
def Page.finishJoined (p : Page) (f : Flag) (letter : Bool) (text : String)
    (rest : List String) : End :=
  match if letter && text != "" then p.cluster f text.toList else .stray f text.toList with
  | .complete => p.finish f
  | .stray g text => .misuse p (.strayValue g (String.ofList text))
  | .wants g => if rest.head?.any p.isValue then p.finish f else .misuse p (.noValue g)

/-! ## The values of flags -/

/-- What is known of a flag's value. -/
inductive Given (α : Type)
  | absent
  /-- The flag occurs with the divider for a value, of which nothing remains. -/
  | blank
  | value (a : α)
  deriving DecidableEq

namespace Given

def toOption {α : Type} : Given α → Option α
  | value a => some a
  | _ => none

/-- What is known of a flag's value from the text given for it. -/
def ofText {α ε : Type} (read : String → Except ε α) (text : String) :
    Except ε (Given α) :=
  if text = "--" then .ok blank else (read text).map value

end Given

/-! ## The words of a command -/

/-- What the words of a command say. -/
structure Found where
  name : Option String
  format : Given Format
  limit : Given Nat
  extras : List String
  deriving DecidableEq

def Found.nothing : Found := ⟨none, .absent, .absent, []⟩

def readFormat (name : String) : Except Misuse Format :=
  match Format.ofName? name with
  | some format => .ok format
  | none => .error (.unknownFormat name)

def readLimit (text : String) : Except Misuse Nat :=
  match Count.read text with
  | .ok n => .ok n
  | .error e => .error (.badLimit e)

/-- Takes note of a flag's value; the last value of a flag counts. -/
def Found.set (p : Page) (found : Found) (f : Flag) (value : String) : Except End Found :=
  match f with
  | .format =>
    match Given.ofText readFormat value with
    | .ok format => .ok { found with format }
    | .error m => .error (.misuse p m)
  | .limit =>
    match Given.ofText readLimit value with
    | .ok limit => .ok { found with limit }
    | .error m => .error (.misuse p m)
  | _ => .ok found

def Found.leave (found : Found) (words : List String) : Found :=
  { found with extras := found.extras ++ words }

def Page.readBehind (p : Page) (found : Found) (words : List String) : Found :=
  match p.takesName && found.name.isNone, words with
  | true, w :: rest => { found with name := some w }.leave rest
  | _, _ => found.leave ("--" :: words)

def Page.readWords (p : Page) (found : Found) : List String → Except End Found
  | [] => .ok found
  | w :: rest =>
    match p.role w with
    | .divider => .ok (p.readBehind found rest)
    | .ambiguous spellings => .error (.misuse p (.ambiguous w spellings))
    | .unknown => readWords p (found.leave [w]) rest
    | .plain =>
      if p.takesName && found.name.isNone then
        match rest with
        | "--" :: rest' => .ok ({ found with name := some w }.leave rest')
        | _ => readWords p { found with name := some w } rest
      else readWords p (found.leave [w]) rest
    | .flag f =>
      if f.takesValue then
        match rest with
        | [] => .error (.misuse p (.noValue f))
        | v :: rest' =>
          if p.isValue v then
            match found.set p f v with
            | .ok found' => readWords p found' rest'
            | .error e => .error e
          else .error (.misuse p (.noValue f))
      else .error (p.finish f)
    | .joined f letter text =>
      if f.takesValue then
        match found.set p f text with
        | .ok found' => readWords p found' rest
        | .error e => .error e
      else .error (p.finishJoined f letter text rest)

/-- Reads the words of a command and sees to it that a name is there where one is
needed. -/
def Page.readCommand (p : Page) (words : List String) : Except End Found :=
  match p.ambiguity? words with
  | some e => .error e
  | none =>
    match p.readWords .nothing words with
    | .error e => .error e
    | .ok found =>
      if p.takesName && found.name.isNone then .error (.misuse p .noName) else .ok found

/-! ## The words of the main page -/

/-- What the words before the command say, and the command with its own words. -/
structure Opening where
  /-- The severity from which on records are shown, if one is given. -/
  level : Given String
  extras : List String
  /-- The command and the words behind it. -/
  command : Option (Page × List String)
  deriving DecidableEq

def commandPage (word : String) : Except End Page :=
  match Page.ofCommand? word with
  | some p => .ok p
  | none => .error (.misuse .main (.unknownCommand word))

/-- Reads the words of the main page up to the command. -/
def readOpening (level : Given String) (extras : List String) :
    List String → Except End Opening
  | [] => .ok ⟨level, extras, none⟩
  | w :: rest =>
    match Page.main.role w with
    | .divider =>
      match rest with
      | [] => .ok ⟨level, extras ++ [w], none⟩
      | _ :: _ => .error (.misuse .main (.unknownCommand w))
    | .plain =>
      match commandPage w with
      | .ok p => .ok ⟨level, extras, some (p, rest)⟩
      | .error e => .error e
    | .ambiguous spellings => .error (.misuse .main (.ambiguous w spellings))
    | .unknown => readOpening level (extras ++ [w]) rest
    | .flag f =>
      if f.takesValue then
        match rest with
        | [] => .error (.misuse .main (.noValue f))
        | v :: rest' =>
          if Page.main.isValue v then readOpening (.value v) extras rest'
          else .error (.misuse .main (.noValue f))
      else .error (Page.main.finish f)
    | .joined f letter text =>
      if f.takesValue then
        readOpening (if text = "--" then .blank else .value text) extras rest
      else .error (Page.main.finishJoined f letter text rest)

/-! ## Requests -/

/-- What a command line asks for. -/
inductive Task
  | nothing
  | list
  | display (name : String)
  | run (name : String) (format : Given Format) (limit : Given Nat)
  deriving DecidableEq

/-- A task and the severity from which on records are shown, if one is given. -/
structure Request where
  level : Given String
  task : Task
  deriving DecidableEq

def Page.task (p : Page) (found : Found) : Task :=
  let name := found.name.getD ""
  match p with
  | .main => .nothing
  | .list => .list
  | .display => .display name
  | .run => .run name found.format found.limit

/-- A request, unless words are left over. -/
def request (level : Given String) (task : Task) (extras : List String) :
    Except End Request :=
  if extras.isEmpty then .ok ⟨level, task⟩ else .error (.misuse .main (.leftOver extras))

def Opening.read (opening : Opening) : Except End Request :=
  match opening.command with
  | none => request opening.level .nothing opening.extras
  | some (p, rest) =>
    match p.readCommand rest with
    | .error e => .error e
    | .ok found => request opening.level (p.task found) (opening.extras ++ found.extras)

def read (words : List String) : Except End Request :=
  match Page.main.ambiguity? words with
  | some e => .error e
  | none =>
    match readOpening .absent [] words with
    | .error e => .error e
    | .ok opening => opening.read

end Stepwise.Command
