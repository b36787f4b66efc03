import Stepwise.Command.Reply

/-!
# The command line program

Hands the words of the command line and the severity named by the environment to
`Command.answer` and prints what comes back.
-/

namespace Stepwise

/-- The steps that a run without a limit is given. Every program of the catalog needs
far fewer. -/
def patience : Nat := 100000

/-- Prints a reply and gives its exit code. -/
def Command.Reply.print (r : Command.Reply) : IO UInt32 := do
  (← IO.getStdout).putStr r.out
  (← IO.getStderr).putStr r.err
  return r.code.toUInt32

end Stepwise

def main (words : List String) : IO UInt32 := do
  let ambient ← IO.getEnv "SMALLSTEP_LOG_LEVEL"
  match Stepwise.Command.answer Stepwise.patience ambient words with
  | some (.ok reply) => reply.print
  | some (.error abort) =>
    (← IO.getStderr).putStr (abort.message ++ "\n")
    return 1
  | none => return 1
