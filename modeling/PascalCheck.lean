import PascalCheck.Analysis.Summary
import PascalCheck.Builtin.Loader
import PascalCheck.Check.Outcome
import PascalCheck.Command.Verify
import PascalCheck.Diagnostic.Record
import PascalCheck.Files.Tree
import PascalCheck.Grammar.Program
import PascalCheck.Main
import PascalCheck.Scope.View
import PascalCheck.Token.Lexing
import PascalCheck.Tree.Outline
import PascalCheck.Ty.Operator
import PascalCheck.Proofs.Grammar.Acceptance
import PascalCheck.Proofs.Printing.RoundTrip
import PascalCheck.Proofs.Check.LetterCase
import PascalCheck.Proofs.Check.Recovery
import PascalCheck.Proofs.Check.Totality
import PascalCheck.Proofs.Token.Partition
import PascalCheck.Proofs.Typing.Inference
import PascalCheck.Proofs.Check.LexicalScoping
import PascalCheck.Proofs.Scope.Frame
import PascalCheck.Proofs.Grammar.Progress
import PascalCheck.Proofs.Recovery.MissingSeparator
import PascalCheck.Proofs.Check.ScopeNesting
import PascalCheck.Proofs.Check.ReadOnly
import PascalCheck.Proofs.Check.LexicalErrors
import PascalCheck.Proofs.Check.SourcePositions
import PascalCheck.Proofs.Token.Blanking
import PascalCheck.Proofs.Check.CallChecking
import PascalCheck.Proofs.Check.Initialization
import PascalCheck.Proofs.Token.Separation
import PascalCheck.Proofs.Token.LineBreak
import PascalCheck.Proofs.Token.WrittenTokens
import PascalCheck.Proofs.Typing.OperandFaults
import PascalCheck.Proofs.Walk.Declarations
import PascalCheck.Proofs.Check.Redeclaration
import PascalCheck.Proofs.Check.UnnamedBuiltins
import PascalCheck.Proofs.Builtin.Accounting
import PascalCheck.Proofs.Builtin.Writing
import PascalCheck.Proofs.Builtin.Ranges
import PascalCheck.Proofs.Diagnostic.Views
import PascalCheck.Proofs.Scope.Ambiguity
import PascalCheck.Proofs.Tree.Unambiguous
import PascalCheck.Proofs.Command.Status
