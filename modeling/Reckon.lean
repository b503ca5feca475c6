import Reckon.Text.Blank
import Reckon.Text.CaseTable
import Reckon.Text.Lowercase
import Reckon.Text.Name
import Reckon.Text.Pieces
import Reckon.Number.Double
import Reckon.Number.Decimal
import Reckon.Number.Shortest
import Reckon.Number.Layout
import Reckon.Number.WholePart
import Reckon.Bracket
import Reckon.Token
import Reckon.ReadError
import Reckon.Scanner
import Reckon.Tree.Node
import Reckon.Tree.Span
import Reckon.Tree.Build
import Reckon.Failure
import Reckon.Operation
import Reckon.Builtin
import Reckon.Evaluation
import Reckon.Declaration
import Reckon.Entries
import Reckon.FunctionTable
import Reckon.VariableTable
import Reckon.Scope
import Reckon.Statement
import Reckon.Session
import Reckon.Bindings
import Reckon.Json.Numeral
import Reckon.Json.Quoted
import Reckon.Json.Value
import Reckon.Settings
import Reckon.Proofs.Steps
import Reckon.Proofs.Span.Balance
import Reckon.Proofs.Span.Stripping
import Reckon.Proofs.Span.Weakest
import Reckon.Proofs.Tree.Part
import Reckon.Proofs.Tree.Following
import Reckon.Proofs.Tree.Level
import Reckon.Proofs.Tree.Levelled
import Reckon.Proofs.Tree.Replacing
import Reckon.Proofs.Span.Separated
import Reckon.Proofs.Tree.Grammar
import Reckon.Proofs.Tree.Shape
import Reckon.Proofs.Evaluation.Nodes
import Reckon.Proofs.Tree.Parse
import Reckon.Proofs.Tree.Reading
import Reckon.Proofs.Tree.Display
import Reckon.Proofs.Span.Group
import Reckon.Proofs.Tree.Context
import Reckon.Proofs.Tree.Substitution
import Reckon.Proofs.Evaluation.Simulation
import Reckon.Proofs.Scope.Answer
import Reckon.Proofs.Scope.Calls
import Reckon.Proofs.Scope.Questions
import Reckon.Proofs.Scope.Alike
import Reckon.Proofs.Session.Pass
import Reckon.Proofs.Session.Run
import Reckon.Proofs.VariableTable
import Reckon.Proofs.VariableTable.Updates
import Reckon.Proofs.FunctionTable
import Reckon.Proofs.Session.Limit
import Reckon.Proofs.Session.Depth
import Reckon.Proofs.Evaluation.Strict
import Reckon.Proofs.Evaluation.Operands
import Reckon.Proofs.Evaluation.Shape
import Reckon.Proofs.Evaluation.Reference
import Reckon.Proofs.Evaluation.Levels
import Reckon.Proofs.Scanner.Names
import Reckon.Proofs.Number.Plain
import Reckon.Proofs.Number.Fields
import Reckon.Proofs.Number.Exact
import Reckon.Proofs.Number.Difference
import Reckon.Proofs.Number.Positional
import Reckon.Proofs.Number.Whole
import Reckon.Proofs.Number.Spelling
import Reckon.Proofs.Scanner.Classes
import Reckon.Proofs.Scanner.WellFormed
import Reckon.Proofs.Scanner.Written
import Reckon.Proofs.Bracket.Neutral
import Reckon.Proofs.Bracket.Nested
import Reckon.Proofs.Span.Nested
import Reckon.Proofs.Tree.Visited
import Reckon.Proofs.Scope.Recursion
import Reckon.Proofs.Session.Order
import Reckon.Proofs.Session.ReadBack
import Reckon.Proofs.Session.Inert
import Reckon.Proofs.Declaration.Header
import Reckon.Proofs.Scanner.Blanks
import Reckon.Proofs.Scanner.Stepping
import Reckon.Proofs.Declaration.Reading
import Reckon.Proofs.Scope.Binding
import Reckon.Proofs.Scanner.Renaming
import Reckon.Proofs.Declaration.Renaming
import Reckon.Proofs.Evaluation.Variant
import Reckon.Proofs.Scope.Renaming
import Reckon.Proofs.Session.Renaming
import Reckon.Proofs.Scanner.Spaced
import Reckon.Proofs.Tree.Limit
import Reckon.Proofs.Session.Dependence
import Reckon.Proofs.Session.History
import Reckon.Proofs.Session.Forms
import Reckon.Proofs.Session.Described
import Reckon.Proofs.Scanner.Respelling
import Reckon.Proofs.Tree.Respelling
import Reckon.Proofs.Declaration.Named
import Reckon.Proofs.Declaration.Deviation
import Reckon.Proofs.Declaration.Lookup
import Reckon.Proofs.Declaration.Respelling
import Reckon.Proofs.Scope.Respelling
import Reckon.Proofs.Session.Respelling
import Reckon.Proofs.Settings
