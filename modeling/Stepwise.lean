import Stepwise.Table
import Stepwise.Text.Blank
import Stepwise.Text.Digit
import Stepwise.Text.Join
import Stepwise.Text.Numeral
import Stepwise.Text.Printable
import Stepwise.Text.Quoted
import Stepwise.Scalar
import Stepwise.Term.Basic
import Stepwise.Term.Text
import Stepwise.Store.Basic
import Stepwise.Fault
import Stepwise.Store.Binding
import Stepwise.State
import Stepwise.Reduction.Expression
import Stepwise.Reduction.Statement
import Stepwise.Reduction.Step
import Stepwise.Reduction.Measure
import Stepwise.Reduction.Evaluation
import Stepwise.Text.Json
import Stepwise.History.Basic
import Stepwise.History.Style
import Stepwise.History.Document
import Stepwise.Journal
import Stepwise.Session.Basic
import Stepwise.Session.Sink
import Stepwise.Session.Run
import Stepwise.Session.Walker
import Stepwise.Session.Bench
import Stepwise.Likeness
import Stepwise.Store.Versions
import Stepwise.Catalog
import Stepwise.Text.Upper
import Stepwise.Command.Count
import Stepwise.Command.Page
import Stepwise.Command.Misuse
import Stepwise.Command.Word
import Stepwise.Command.Reading
import Stepwise.Command.Reply
import Stepwise.Main
import Stepwise.Tour
import Stepwise.Proofs.Reduction.Rules
import Stepwise.Proofs.Reduction.After
import Stepwise.Proofs.Reduction.Value
import Stepwise.Proofs.Reduction.Evaluate
import Stepwise.Proofs.Reduction.Proper
import Stepwise.Proofs.Reduction.BigStep
import Stepwise.Proofs.Session.Journey
import Stepwise.Proofs.Session.Exits
import Stepwise.Proofs.Session.Agreement
import Stepwise.Proofs.Session.Schedule
import Stepwise.Proofs.Reduction.Effect
import Stepwise.Proofs.Reduction.Frame
import Stepwise.Proofs.Reduction.Plain
import Stepwise.Proofs.Reduction.Lockstep
import Stepwise.Proofs.Reduction.Progress
import Stepwise.Proofs.Session.Safety
import Stepwise.Proofs.Reduction.Context
import Stepwise.Proofs.Session.Congruence
import Stepwise.Proofs.Session.Offers
import Stepwise.Proofs.Session.Journal
import Stepwise.Proofs.Session.Pieces
import Stepwise.Proofs.Session.Walkers
import Stepwise.Proofs.Text.Grammar
import Stepwise.Proofs.Text.Render
import Stepwise.Proofs.Text.HistoryJson
import Stepwise.Proofs.Text.Styles
import Stepwise.Proofs.Session.Growth
import Stepwise.Proofs.Command.Clean
import Stepwise.Proofs.Session.Sequence
import Stepwise.Proofs.Command.ExitCodes
import Stepwise.Proofs.Session.Guard
import Stepwise.Proofs.Session.LoopFree
import Stepwise.Proofs.Session.WiderStore
import Stepwise.Proofs.Session.Rounds
import Stepwise.Proofs.Store.Writes
import Stepwise.Proofs.Store.Versions
