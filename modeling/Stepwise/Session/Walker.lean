import Stepwise.Session.Basic

/-!
# Walking a session by hand

A `Walker` shows the states of a session one at a time. It owns no state of its own: it
looks at the session, and from its second showing on it steps the session first. Others
may step the session between two showings. A walker that has shown a finished program,
or has met a fault, is done for good.
-/

namespace Stepwise

/-- Where a walker stands. -/
inductive Walker
  /-- It has shown nothing yet. -/
  | fresh
  /-- It has shown a program with a step left. -/
  | paused
  /-- It shows nothing more. -/
  | done
  deriving DecidableEq, Inhabited, Repr

/-- What comes of one showing: the walker and the session afterwards, and the entry
shown, if any. -/
structure Showing where
  walker : Walker
  session : Session
  shown : Except Fault (Option Entry)

namespace Walker

/-- Shows the current state of a session. -/
def look (m : Session) : Showing :=
  match m.canStep with
  | .error f => ⟨.done, m, .error f⟩
  | .ok true => ⟨.paused, m, .ok (some m.entry)⟩
  | .ok false => ⟨.done, m, .ok (some m.entry)⟩

/-- The next showing. -/
def next (w : Walker) (m : Session) : Showing :=
  match w with
  | fresh => look m
  | paused =>
    match m.step with
    | .error f => ⟨.done, m, .error f⟩
    | .ok m' => look m'
  | done => ⟨.done, m, .ok none⟩

end Walker

/-- Walks a session with a new walker and keeps the first `n` states it shows. The walk
stops when it sees one state more, so that the session ends up `n` steps further, or
where its program is finished. -/
def Session.take (n : Nat) (m : Session) : Session × Except Fault (List Entry) :=
  match m.canStep with
  | .error f => (m, .error f)
  | .ok more =>
    match n with
    | 0 => (m, .ok [])
    | n + 1 =>
      if more then
        match m.step with
        | .error f => (m, .error f)
        | .ok m' =>
          let rest := take n m'
          (rest.1, rest.2.map (m.entry :: ·))
      else (m, .ok [m.entry])

end Stepwise
