import TypedFormula.Text.Blank
import TypedFormula.Text.Letter
import TypedFormula.Text.Numeral
import TypedFormula.Text.Extender
import TypedFormula.Text.Invisible
import TypedFormula.Text.CaseTable
import TypedFormula.Decimal.Arithmetic
import TypedFormula.Decimal.Text
import TypedFormula.Text.Bytes
import TypedFormula.Text.Escaped
import TypedFormula.Text.LetterCase
import TypedFormula.Text.Search
import TypedFormula.Binary.Format
import TypedFormula.Binary.Integral
import TypedFormula.Binary.Layout
import TypedFormula.Diagnostic
import TypedFormula.Lexeme
import TypedFormula.Lexer
import TypedFormula.Accessor
import TypedFormula.Expr
import TypedFormula.Expr.Preorder
import TypedFormula.Expr.Print
import TypedFormula.Expr.Search
import TypedFormula.Registry
import TypedFormula.Builtins
import TypedFormula.Binding
import TypedFormula.Evaluation
import TypedFormula.Parser
import TypedFormula.Host.Body
import TypedFormula.Host.TypeSpec
import TypedFormula.Engine
import TypedFormula.Host.Library
import TypedFormula.Session
import TypedFormula.CommandLine.Arguments
import TypedFormula.CommandLine.Json
import TypedFormula.CommandLine.Run
import TypedFormula.Main
import TypedFormula.Proofs.Alike
import TypedFormula.Proofs.BuiltinConformity
import TypedFormula.Proofs.Conformity
import TypedFormula.Proofs.Cutting
import TypedFormula.Proofs.CutLexemes
import TypedFormula.Proofs.DecimalText
import TypedFormula.Proofs.DottedNames
import TypedFormula.Proofs.FloatBits
import TypedFormula.Proofs.FloatText
import TypedFormula.Proofs.ForcedReadings
import TypedFormula.Proofs.Grammar
import TypedFormula.Proofs.GrammaticalFormulas
import TypedFormula.Proofs.Lexing
import TypedFormula.Proofs.LiteralText
import TypedFormula.Proofs.Lookups
import TypedFormula.Proofs.NearestFloats
import TypedFormula.Proofs.NumberParts
import TypedFormula.Proofs.NumberText
import TypedFormula.Proofs.Operands
import TypedFormula.Proofs.Outcomes
import TypedFormula.Proofs.ParsedTrees
import TypedFormula.Proofs.PrintedMeaning
import TypedFormula.Proofs.PrintedTokens
import TypedFormula.Proofs.Readings
import TypedFormula.Proofs.TokenRows
import TypedFormula.Proofs.SpanNesting
import TypedFormula.Proofs.Relocation
import TypedFormula.Proofs.CutTokens
import TypedFormula.Proofs.NameFronts
import TypedFormula.Proofs.NodeReadings
import TypedFormula.Proofs.NodeTexts
import TypedFormula.Proofs.ContextTypes
import TypedFormula.Proofs.IntegerChains
import TypedFormula.Proofs.IntegerSums
import TypedFormula.Proofs.ReadingsOfRuns
import TypedFormula.Proofs.OperatorLayers
import TypedFormula.Proofs.Rebinding
import TypedFormula.Proofs.RereadTrees
import TypedFormula.Proofs.Rereading
import TypedFormula.Proofs.RoundTrip
import TypedFormula.Proofs.TokenRuns
import TypedFormula.Proofs.RunsOfReadings
import TypedFormula.Proofs.Soundness
import TypedFormula.Proofs.SpanlessEvaluation
import TypedFormula.Proofs.Scanners
import TypedFormula.Proofs.Spellings
import TypedFormula.Proofs.Streams
import TypedFormula.Proofs.Trees
import TypedFormula.Proofs.TreeLevels
import TypedFormula.Proofs.Snippets
import TypedFormula.Proofs.Unambiguity
import TypedFormula.Proofs.WellBound
import TypedFormula.Proofs.WholeFormulas
import TypedFormula.Proofs.WiderLimits
import TypedFormula.Proofs.LosslessLexing
import TypedFormula.Proofs.EvaluationSteps
import TypedFormula.Proofs.Invocations
import TypedFormula.Proofs.Arrivals
import TypedFormula.Proofs.ArrivalsOfRuns
import TypedFormula.Proofs.RunsOfArrivals
import TypedFormula.Proofs.ExactBinding
import TypedFormula.Proofs.PrintedLimits
import TypedFormula.Proofs.FaultSpans
import TypedFormula.Proofs.NameResolution
import TypedFormula.Proofs.SpanlessLexing
import TypedFormula.Proofs.SpanlessRuns
import TypedFormula.Proofs.Regrouping
import TypedFormula.Proofs.ChainedNames
import TypedFormula.Proofs.SuffixRuns
import TypedFormula.Proofs.QuotedTexts
import TypedFormula.Proofs.SpacedLexemes
import TypedFormula.Proofs.Registrations
import TypedFormula.Proofs.NumberClasses
import TypedFormula.Proofs.SlicedTexts
import TypedFormula.Proofs.ParsedValues
import TypedFormula.Proofs.CaretLines
