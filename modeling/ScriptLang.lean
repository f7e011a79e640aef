import ScriptLang.Calendar.Instant
import ScriptLang.Character.Age
import ScriptLang.Character.Break
import ScriptLang.Character.Category
import ScriptLang.Character.Property
import ScriptLang.Character.Query
import ScriptLang.Character.Script
import ScriptLang.Command.Actions
import ScriptLang.Command.Line
import ScriptLang.Diagnostic.Basic
import ScriptLang.Diagnostic.Nearest
import ScriptLang.Eval.Access
import ScriptLang.Eval.Call
import ScriptLang.Eval.CallStack
import ScriptLang.Eval.Case
import ScriptLang.Eval.Evaluator
import ScriptLang.Eval.Expression
import ScriptLang.Eval.Fault
import ScriptLang.Eval.Import
import ScriptLang.Eval.Journal
import ScriptLang.Eval.Machine
import ScriptLang.Eval.Printer
import ScriptLang.Eval.Run
import ScriptLang.Eval.Statement
import ScriptLang.Grammar.Cursor
import ScriptLang.Grammar.Expression
import ScriptLang.Grammar.Fault
import ScriptLang.Grammar.Function
import ScriptLang.Grammar.Parser
import ScriptLang.Grammar.Pattern
import ScriptLang.Grammar.Program
import ScriptLang.Grammar.Statement
import ScriptLang.Host.Basic
import ScriptLang.Host.Failure
import ScriptLang.Host.Path
import ScriptLang.Host.Sandbox
import ScriptLang.Host.Workspace
import ScriptLang.Json.Basic
import ScriptLang.Json.Cursor
import ScriptLang.Json.Reader
import ScriptLang.Json.Writer
import ScriptLang.Library.Argument
import ScriptLang.Library.Arrays
import ScriptLang.Library.Assertions
import ScriptLang.Library.Catalog
import ScriptLang.Library.Core
import ScriptLang.Library.Dispatch
import ScriptLang.Library.Documents
import ScriptLang.Library.Numbers
import ScriptLang.Library.Objects
import ScriptLang.Library.Patterns
import ScriptLang.Library.Sorting
import ScriptLang.Library.Strings
import ScriptLang.Library.Surroundings
import ScriptLang.Library.Times
import ScriptLang.Main
import ScriptLang.Number.Binary
import ScriptLang.Number.Decimal
import ScriptLang.Proofs.Advances
import ScriptLang.Proofs.AdvancesExpression
import ScriptLang.Proofs.AdvancesStatement
import ScriptLang.Proofs.ArgumentBinding
import ScriptLang.Proofs.AssociationLists
import ScriptLang.Proofs.Attribution
import ScriptLang.Proofs.AttributionEvaluator
import ScriptLang.Proofs.AttributionRuns
import ScriptLang.Proofs.AttributionStatement
import ScriptLang.Proofs.Bisimilarity
import ScriptLang.Proofs.CallDepth
import ScriptLang.Proofs.CallTraces
import ScriptLang.Proofs.CanonicalPaths
import ScriptLang.Proofs.Concurs
import ScriptLang.Proofs.ConcursExpression
import ScriptLang.Proofs.ConcursStatement
import ScriptLang.Proofs.ConfinedLibrary
import ScriptLang.Proofs.Containment
import ScriptLang.Proofs.ContextRestored
import ScriptLang.Proofs.DeclaredNames
import ScriptLang.Proofs.DeepEquality
import ScriptLang.Proofs.Discipline
import ScriptLang.Proofs.DistinctElements
import ScriptLang.Proofs.EditDistance
import ScriptLang.Proofs.EmittedErrors
import ScriptLang.Proofs.Evaluator
import ScriptLang.Proofs.ExpressionParts
import ScriptLang.Proofs.FileExports
import ScriptLang.Proofs.FormattedDates
import ScriptLang.Proofs.HostPaths
import ScriptLang.Proofs.ImportPlaces
import ScriptLang.Proofs.ImportSearch
import ScriptLang.Proofs.Imports
import ScriptLang.Proofs.IndexedMaps
import ScriptLang.Proofs.IndexedWrites
import ScriptLang.Proofs.InitialMachine
import ScriptLang.Proofs.Journals
import ScriptLang.Proofs.JsonRoundTrip
import ScriptLang.Proofs.JumpFate
import ScriptLang.Proofs.KeyWrites
import ScriptLang.Proofs.LaterScopes
import ScriptLang.Proofs.LegibleNumbers
import ScriptLang.Proofs.Lexemes
import ScriptLang.Proofs.LexerCalls
import ScriptLang.Proofs.LibraryHabits
import ScriptLang.Proofs.ListCallbacks
import ScriptLang.Proofs.LiteralRoundTrip
import ScriptLang.Proofs.Loader
import ScriptLang.Proofs.LoaderRuns
import ScriptLang.Proofs.Local
import ScriptLang.Proofs.LocatedTrees
import ScriptLang.Proofs.LoopScopes
import ScriptLang.Proofs.LosslessTokens
import ScriptLang.Proofs.MatchedCases
import ScriptLang.Proofs.NormalPaths
import ScriptLang.Proofs.NumberTexts
import ScriptLang.Proofs.Outlines
import ScriptLang.Proofs.ParsedFiles
import ScriptLang.Proofs.ParserProgress
import ScriptLang.Proofs.PlacelessTrees
import ScriptLang.Proofs.PlainValues
import ScriptLang.Proofs.Provenance
import ScriptLang.Proofs.ProvenanceLibrary
import ScriptLang.Proofs.QuotedErrors
import ScriptLang.Proofs.QuotedJson
import ScriptLang.Proofs.RandomStates
import ScriptLang.Proofs.RebuiltObjects
import ScriptLang.Proofs.RecombinedPaths
import ScriptLang.Proofs.Regime
import ScriptLang.Proofs.RegimeEvaluator
import ScriptLang.Proofs.RegimeRuns
import ScriptLang.Proofs.RelaidTokens
import ScriptLang.Proofs.Renderable
import ScriptLang.Proofs.Rendering
import ScriptLang.Proofs.ReplacementReferences
import ScriptLang.Proofs.RightOperands
import ScriptLang.Proofs.RoundTrip
import ScriptLang.Proofs.ScopeFrame
import ScriptLang.Proofs.ScopeHistory
import ScriptLang.Proofs.ScopeTree
import ScriptLang.Proofs.ScopeWrites
import ScriptLang.Proofs.SetBoundary
import ScriptLang.Proofs.SmallerParts
import ScriptLang.Proofs.SortedElements
import ScriptLang.Proofs.SpacedTokens
import ScriptLang.Proofs.Spans
import ScriptLang.Proofs.SpansExpression
import ScriptLang.Proofs.SpansStatement
import ScriptLang.Proofs.SparedContainers
import ScriptLang.Proofs.SpelledDocuments
import ScriptLang.Proofs.SpelledLiterals
import ScriptLang.Proofs.SplitTexts
import ScriptLang.Proofs.StableSorting
import ScriptLang.Proofs.StatementParts
import ScriptLang.Proofs.Steady
import ScriptLang.Proofs.Steps
import ScriptLang.Proofs.Stretches
import ScriptLang.Proofs.SubstringSearch
import ScriptLang.Proofs.Takes
import ScriptLang.Proofs.TakesExpression
import ScriptLang.Proofs.TemplateModes
import ScriptLang.Proofs.TokenLocations
import ScriptLang.Proofs.TokenPlaces
import ScriptLang.Proofs.TracedErrors
import ScriptLang.Proofs.WellFormedTrees
import ScriptLang.Proofs.WellTargeted
import ScriptLang.Proofs.WholeNumbers
import ScriptLang.Proofs.WrittenDocuments
import ScriptLang.Regex.Class
import ScriptLang.Regex.Cursor
import ScriptLang.Regex.Escape
import ScriptLang.Regex.Expression
import ScriptLang.Regex.Fault
import ScriptLang.Regex.Meaning
import ScriptLang.Regex.Parser
import ScriptLang.Regex.Program
import ScriptLang.Regex.Replacement
import ScriptLang.Regex.Search
import ScriptLang.Regex.Size
import ScriptLang.Regex.Syntax
import ScriptLang.Source.Lines
import ScriptLang.Source.Span
import ScriptLang.Text.Blank
import ScriptLang.Text.Case
import ScriptLang.Text.Fold
import ScriptLang.Text.Pieces
import ScriptLang.Text.Quoted
import ScriptLang.Text.Ranges
import ScriptLang.Text.Replace
import ScriptLang.Token.Basic
import ScriptLang.Token.Lexer
import ScriptLang.Tree.Basic
import ScriptLang.Tree.Dump
import ScriptLang.Tree.Operator
import ScriptLang.Value.Basic
import ScriptLang.Value.Equality
import ScriptLang.Value.Heap
import ScriptLang.Value.OrderedMap
import ScriptLang.Value.Print
import ScriptLang.Value.Scope
