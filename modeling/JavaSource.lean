import JavaSource.Workload.Comments
import JavaSource.Workload.Cursors
import JavaSource.Workload.Trees
import JavaSource.Proofs.Cursor.Agreement
import JavaSource.Proofs.Expression.Precedence
import JavaSource.Proofs.Expression.RoundTrip
import JavaSource.Proofs.Javadoc.Attachment
import JavaSource.Proofs.Lexer.Classes
import JavaSource.Proofs.Lexer.Lenient
import JavaSource.Proofs.Lexer.Malformed
import JavaSource.Proofs.Lexer.Modes
import JavaSource.Proofs.Lexer.Progress
import JavaSource.Proofs.Lexer.Quotations
import JavaSource.Proofs.Lexer.Reformat
import JavaSource.Proofs.Parser.Markers
import JavaSource.Proofs.Parser.TokenTests
import JavaSource.Proofs.Layout.Units
import JavaSource.Proofs.Termination.Units
import JavaSource.Proofs.Truncation.Units
import JavaSource.Proofs.Expression.LambdaParameters
import JavaSource.Proofs.Annotations.Halting
import JavaSource.Proofs.Printer.Indentation
import JavaSource.Proofs.Types.RoundTrip
import JavaSource.Proofs.Declarations.Members
import JavaSource.Proofs.Javadoc.Canonical
import JavaSource.Proofs.Javadoc.Failures
import JavaSource.Proofs.Javadoc.Margin
import JavaSource.Proofs.Cursor.LookAhead
import JavaSource.Proofs.Lexer.Bytes
import JavaSource.Proofs.Statements.SwitchLabels
import JavaSource.Proofs.Tree.Walk
