import RightLinear.Automaton
import RightLinear.Batch
import RightLinear.CaseFile.Item
import RightLinear.CaseFile.Reader
import RightLinear.Checked
import RightLinear.CommandLine.Options
import RightLinear.CommandLine.Run
import RightLinear.DFA.Basic
import RightLinear.DFA.Complete
import RightLinear.DFA.Product
import RightLinear.DFA.Relabel
import RightLinear.DFA.Trim
import RightLinear.Decimal.Binary64
import RightLinear.Decimal.Shortest
import RightLinear.Diagram.Basic
import RightLinear.Diagram.Drawing
import RightLinear.Diagram.Label
import RightLinear.Diagram.Renderer
import RightLinear.Error
import RightLinear.FileSystem
import RightLinear.Grammar.Basic
import RightLinear.Grammar.Derive
import RightLinear.Grammar.Enumeration
import RightLinear.Grammar.ToNFA
import RightLinear.InPlace
import RightLinear.Json.Reader
import RightLinear.Json.Value
import RightLinear.Key
import RightLinear.Label
import RightLinear.Load
import RightLinear.Log.Config
import RightLinear.Log.Record
import RightLinear.Log.Time
import RightLinear.Log.Trace
import RightLinear.Main
import RightLinear.NFA.Basic
import RightLinear.NFA.Determinize
import RightLinear.Pool
import RightLinear.Proofs.Automaton
import RightLinear.Proofs.Batch
import RightLinear.Proofs.CaseFile.Accounted
import RightLinear.Proofs.CaseFile.Append
import RightLinear.Proofs.CaseFile.Growth
import RightLinear.Proofs.CaseFile.Layout
import RightLinear.Proofs.CaseFile.OnLines
import RightLinear.Proofs.CaseFile.Reader
import RightLinear.Proofs.CaseFile.Rule
import RightLinear.Proofs.Checked
import RightLinear.Proofs.Combine
import RightLinear.Proofs.CommandLine.Publish
import RightLinear.Proofs.CommandLine.Run
import RightLinear.Proofs.DFA.Complete
import RightLinear.Proofs.DFA.Computed
import RightLinear.Proofs.DFA.LabelOrder
import RightLinear.Proofs.DFA.Ordered
import RightLinear.Proofs.DFA.Product
import RightLinear.Proofs.DFA.ProductOutcome
import RightLinear.Proofs.DFA.Reachable
import RightLinear.Proofs.DFA.Readable
import RightLinear.Proofs.DFA.Relabel
import RightLinear.Proofs.DFA.Run
import RightLinear.Proofs.DFA.Substitution
import RightLinear.Proofs.DFA.Trim
import RightLinear.Proofs.Diagram.Drawing
import RightLinear.Proofs.Diagram.Faithful
import RightLinear.Proofs.Failure
import RightLinear.Proofs.FileSystem
import RightLinear.Proofs.Foreign
import RightLinear.Proofs.Grammar.Enumeration
import RightLinear.Proofs.Grammar.Language
import RightLinear.Proofs.Grammar.Rearranged
import RightLinear.Proofs.Grammar.Refused
import RightLinear.Proofs.Grammar.Subsets
import RightLinear.Proofs.Grammar.ToNFA
import RightLinear.Proofs.Grammar.Words
import RightLinear.Proofs.InPlace
import RightLinear.Proofs.Key
import RightLinear.Proofs.Label
import RightLinear.Proofs.Load
import RightLinear.Proofs.Log.Config
import RightLinear.Proofs.NFA.Closure
import RightLinear.Proofs.NFA.Crowded
import RightLinear.Proofs.NFA.Determinize
import RightLinear.Proofs.NFA.Growth
import RightLinear.Proofs.NFA.Names
import RightLinear.Proofs.NFA.Path
import RightLinear.Proofs.NFA.Trail
import RightLinear.Proofs.Pool
import RightLinear.Proofs.Report.Block
import RightLinear.Proofs.Report.Legible
import RightLinear.Proofs.Search
import RightLinear.Proofs.Search.AnyOrder
import RightLinear.Proofs.Separator
import RightLinear.Proofs.Table
import RightLinear.Proofs.Terminal.Command
import RightLinear.Proofs.Terminal.Dialogue
import RightLinear.Proofs.Terminal.Effect
import RightLinear.Proofs.Terminal.Load
import RightLinear.Proofs.Terminal.Reply
import RightLinear.Proofs.TestCase
import RightLinear.Proofs.Text.Integer
import RightLinear.Proofs.Text.Lines
import RightLinear.Proofs.Text.Pieces
import RightLinear.RenameFile
import RightLinear.Report
import RightLinear.Search
import RightLinear.SortedSet
import RightLinear.Table
import RightLinear.Terminal.Command
import RightLinear.Terminal.Dialogue
import RightLinear.Terminal.Session
import RightLinear.TestCase
import RightLinear.Text.Blank
import RightLinear.Text.CodePoint
import RightLinear.Text.Digit
import RightLinear.Text.Integer
import RightLinear.Text.Lines
import RightLinear.Text.LowerCase
import RightLinear.Text.Printable
import RightLinear.Text.Quoted
import RightLinear.Text.Ranges
import RightLinear.Text.Utf8
import RightLinear.Word
