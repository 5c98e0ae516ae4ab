import ExpressionLanguage.Conversation.Delivery
import ExpressionLanguage.Main
import ExpressionLanguage.Proofs.Execute.Consistency
import ExpressionLanguage.Proofs.Execute.Rendering
import ExpressionLanguage.Proofs.Grammar.CorrectPrefix
import ExpressionLanguage.Proofs.Scan.Spacing
import ExpressionLanguage.Proofs.Scan.Blanking
import ExpressionLanguage.Proofs.Grammar.Equivariance
import ExpressionLanguage.Proofs.Execute.LineNumbers
import ExpressionLanguage.Proofs.Grammar.Accounting
import ExpressionLanguage.Proofs.Numeral.Float
import ExpressionLanguage.Proofs.Execute.Conversion
import ExpressionLanguage.Proofs.Execute.OuterBlanks
import ExpressionLanguage.Proofs.Scan.Placement
import ExpressionLanguage.Proofs.Scan.Writing
import ExpressionLanguage.Proofs.CommandLine.Emit
import ExpressionLanguage.Proofs.Grammar.Agreement
import ExpressionLanguage.Proofs.Conversation.Lines
import ExpressionLanguage.Proofs.Conversation.Replies
import ExpressionLanguage.Proofs.Conversation.Interruption
import ExpressionLanguage.Proofs.Grammar.Atoms
import ExpressionLanguage.Proofs.Grammar.Progress
import ExpressionLanguage.Proofs.Execute.Journal
import ExpressionLanguage.Proofs.Grammar.Nesting
import ExpressionLanguage.Proofs.Execute.Diagnostics
import ExpressionLanguage.Proofs.Execute.Unambiguous
import ExpressionLanguage.Proofs.Expr.FirstFailure
import ExpressionLanguage.Proofs.Grammar.EndMarker
import ExpressionLanguage.Proofs.Scan.Quotation
import ExpressionLanguage.Proofs.Grammar.IntegerLiteral
