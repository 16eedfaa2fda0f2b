import RulesAssist.Coverage.Cache
import RulesAssist.Coverage.Innermost
import RulesAssist.Coverage.Interference
import RulesAssist.Coverage.Load
import RulesAssist.Coverage.Observation
import RulesAssist.Coverage.Page
import RulesAssist.Coverage.Phrase
import RulesAssist.Coverage.Report
import RulesAssist.Coverage.Watcher
import RulesAssist.Decimal.Binary64
import RulesAssist.Decimal.Shortest
import RulesAssist.Editor.Desk
import RulesAssist.Editor.Query
import RulesAssist.Editor.Requests
import RulesAssist.Editor.Suggestion
import RulesAssist.Editor.Workspace
import RulesAssist.FilePath
import RulesAssist.FileTree
import RulesAssist.Grammar.Declaration
import RulesAssist.Grammar.Reader
import RulesAssist.Grammar.Shipped.BasicTypes
import RulesAssist.Grammar.Shipped.Roots
import RulesAssist.Grammar.Shipped.Rules
import RulesAssist.Grammar.Source
import RulesAssist.Grammar.Walk
import RulesAssist.Grammar.Warning
import RulesAssist.Json.Number
import RulesAssist.Json.Record
import RulesAssist.Json.Token
import RulesAssist.Json.Tree
import RulesAssist.Json.Value
import RulesAssist.Keyed
import RulesAssist.Position
import RulesAssist.Settings
import RulesAssist.SingleFlight.Callers
import RulesAssist.SingleFlight.Cell
import RulesAssist.Symbol.Compilation
import RulesAssist.Symbol.Method
import RulesAssist.Symbol.Modifier
import RulesAssist.Symbol.Table
import RulesAssist.Symbol.TypeSymbol
import RulesAssist.Text.Blank
import RulesAssist.Text.Word
import RulesAssist.Text.WordCharacter
import RulesAssist.Proofs.Position
import RulesAssist.Proofs.Coverage.Forest
import RulesAssist.Proofs.Coverage.Moves
import RulesAssist.Proofs.Coverage.Traffic
import RulesAssist.Proofs.Coverage.Origins
import RulesAssist.Proofs.Coverage.Subscriptions
import RulesAssist.Proofs.Coverage.Freshness
import RulesAssist.Proofs.Editor.Memory
import RulesAssist.Proofs.Editor.Session
import RulesAssist.Proofs.Editor.Recompile
import RulesAssist.Proofs.Editor.Remembered
import RulesAssist.Proofs.Grammar.Path
import RulesAssist.Proofs.Grammar.Reference
import RulesAssist.Proofs.Symbol.Shows
import RulesAssist.Proofs.Symbol.Compilation
import RulesAssist.Proofs.Symbol.Composition
import RulesAssist.Proofs.Symbol.Registration
import RulesAssist.Proofs.Symbol.Everywhere
import RulesAssist.Proofs.Symbol.Course
import RulesAssist.Proofs.Symbol.Orderly
import RulesAssist.Proofs.Symbol.MethodCache
import RulesAssist.Proofs.Symbol.Preparation
import RulesAssist.Proofs.Symbol.Survey
import RulesAssist.Proofs.Symbol.Tidy
import RulesAssist.Proofs.Symbol.Meaning
import RulesAssist.Proofs.Symbol.Table
import RulesAssist.Proofs.Grammar.Reading
import RulesAssist.Proofs.SingleFlight.Crowd
import RulesAssist.Proofs.SingleFlight.Attendance
import RulesAssist.Proofs.SingleFlight.Generations
import RulesAssist.Proofs.SingleFlight.Agreement
import RulesAssist.Proofs.Symbol.Identity
import RulesAssist.Proofs.Grammar.Occurrence
import RulesAssist.Proofs.Grammar.Walk
import RulesAssist.Proofs.Grammar.Warning
import RulesAssist.Proofs.Grammar.Authored
import RulesAssist.Proofs.Symbol.Parent
import RulesAssist.Proofs.Symbol.Lineage
import RulesAssist.Proofs.Symbol.Chronicle
import RulesAssist.Proofs.Symbol.OwnMethods
import RulesAssist.Proofs.Symbol.Modifier
import RulesAssist.Proofs.Symbol.Losses
import RulesAssist.Proofs.Symbol.Definitions
import RulesAssist.Proofs.Coverage.Descent
import RulesAssist.Proofs.Coverage.Evictions
import RulesAssist.Proofs.Coverage.Closing
import RulesAssist.Proofs.Editor.Forgetful
import RulesAssist.Proofs.Coverage.Innermost
import RulesAssist.Proofs.Coverage.Extent
import RulesAssist.Proofs.Coverage.Page
import RulesAssist.Proofs.Text.Word
import RulesAssist.Proofs.Coverage.Undisturbed
import RulesAssist.Proofs.Editor.Calls
import RulesAssist.Proofs.Editor.Hover
import RulesAssist.Proofs.Coverage.WordRange
import RulesAssist.Proofs.Grammar.Cycle
import RulesAssist.Proofs.Symbol.Inclusion
import RulesAssist.Proofs.Symbol.Once
import RulesAssist.Proofs.Coverage.Preorder
import RulesAssist.Proofs.Editor.Cancelled
import RulesAssist.Proofs.Text.Pattern
import RulesAssist.Proofs.Text.Touching
import RulesAssist.Proofs.Coverage.Observation
import RulesAssist.Proofs.Symbol.Snippet
