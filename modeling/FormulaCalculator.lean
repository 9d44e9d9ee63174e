import FormulaCalculator.CommandLine.Calls
import FormulaCalculator.Expr.Profile
import FormulaCalculator.Expr.Revised
import FormulaCalculator.Grammar.Session
import FormulaCalculator.Main
import FormulaCalculator.Reread
import FormulaCalculator.Proofs.Grammar.Derivation
import FormulaCalculator.Proofs.Grammar.Soundness
import FormulaCalculator.Proofs.Grammar.Completeness
import FormulaCalculator.Proofs.Grammar.Acceptance
import FormulaCalculator.Proofs.Grammar.Extent
import FormulaCalculator.Proofs.Grammar.Lookahead
import FormulaCalculator.Proofs.Grammar.FirstNote
import FormulaCalculator.Proofs.Grammar.Located
import FormulaCalculator.Proofs.Grammar.Verdict
import FormulaCalculator.Proofs.Token.Cover
import FormulaCalculator.Proofs.Token.Pieces
import FormulaCalculator.Proofs.Expr.Regular
import FormulaCalculator.Proofs.Grammar.Spans
import FormulaCalculator.Proofs.Grammar.WellFormed
import FormulaCalculator.Proofs.Grammar.Image
import FormulaCalculator.Proofs.Expr.FlatTokens
import FormulaCalculator.Proofs.Grammar.LongSum
import FormulaCalculator.Proofs.Expr.Rereading
import FormulaCalculator.Proofs.Expr.Nodes
import FormulaCalculator.Proofs.Expr.RoundTrip
import FormulaCalculator.Proofs.Expr.Regrouping
import FormulaCalculator.Proofs.Expr.Relabelled
import FormulaCalculator.Proofs.Expr.Labelling
import FormulaCalculator.Proofs.Expr.FlatValue
import FormulaCalculator.Proofs.CommandLine.Answered
import FormulaCalculator.Proofs.Expr.Enclosure
import FormulaCalculator.Proofs.Expr.PlanReading
import FormulaCalculator.Proofs.Token.Parts
import FormulaCalculator.Proofs.Shorthand.Meanings
import FormulaCalculator.Proofs.Shorthand.Products
import FormulaCalculator.Proofs.Expr.FlatNormal
import FormulaCalculator.Proofs.Grammar.Orderly
import FormulaCalculator.Proofs.Expr.Readable
import FormulaCalculator.Proofs.Expr.Stable
import FormulaCalculator.Proofs.Shorthand.Rewriting
import FormulaCalculator.Proofs.Shorthand.NormalForm
import FormulaCalculator.Proofs.Grammar.Conservative
import FormulaCalculator.Proofs.Expr.Nesting
import FormulaCalculator.Proofs.Grammar.Wording
import FormulaCalculator.Proofs.Expr.Minimal
import FormulaCalculator.Proofs.Token.Spacing
import FormulaCalculator.Proofs.Grammar.Placement
import FormulaCalculator.Proofs.Grammar.Names
import FormulaCalculator.Proofs.Expr.Expansion
import FormulaCalculator.Proofs.CommandLine.OptionForms
import FormulaCalculator.Proofs.CommandLine.Effects
import FormulaCalculator.Proofs.CommandLine.Tracing
import FormulaCalculator.Proofs.CommandLine.Sequence
import FormulaCalculator.Proofs.Text.Lines
import FormulaCalculator.Proofs.CommandLine.StandardInput
import FormulaCalculator.Proofs.CommandLine.Sessions
import FormulaCalculator.Proofs.Expr.Unparenthesized
import FormulaCalculator.Proofs.Grammar.Concerns
import FormulaCalculator.Proofs.Grammar.Messages
import FormulaCalculator.Proofs.CommandLine.Rejections
import FormulaCalculator.Proofs.Grammar.Progress
import FormulaCalculator.Proofs.Grammar.SessionCalls
import FormulaCalculator.Proofs.Expr.Lexemes
import FormulaCalculator.Proofs.Expr.Construction
