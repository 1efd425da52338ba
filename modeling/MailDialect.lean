import MailDialect.Conversion
import MailDialect.Diagnostic
import MailDialect.Dialect
import MailDialect.Event
import MailDialect.Failure
import MailDialect.Migration
import MailDialect.Preview
import MailDialect.Preview.Json
import MailDialect.Preview.Pattern
import MailDialect.Proofs.Bracketing
import MailDialect.Proofs.Capture
import MailDialect.Proofs.Cleanness
import MailDialect.Proofs.Concatenation
import MailDialect.Proofs.Condition
import MailDialect.Proofs.Frame
import MailDialect.Proofs.Grammar
import MailDialect.Proofs.Lexeme
import MailDialect.Proofs.LexicalScope
import MailDialect.Proofs.Location
import MailDialect.Proofs.Namespaces
import MailDialect.Proofs.NormalForm
import MailDialect.Proofs.Parsing
import MailDialect.Proofs.Passes
import MailDialect.Proofs.Patterns
import MailDialect.Proofs.Pieces
import MailDialect.Proofs.PlainWriting
import MailDialect.Proofs.Points
import MailDialect.Proofs.Previews
import MailDialect.Proofs.Printing
import MailDialect.Proofs.Quoting
import MailDialect.Proofs.Readback
import MailDialect.Proofs.Reading
import MailDialect.Proofs.Relocation
import MailDialect.Proofs.Reporting
import MailDialect.Proofs.Requoting
import MailDialect.Proofs.Scan
import MailDialect.Proofs.Scoping
import MailDialect.Proofs.Sessions
import MailDialect.Proofs.Slices
import MailDialect.Proofs.Stability
import MailDialect.Proofs.Strictness
import MailDialect.Proofs.Unmarked
import MailDialect.Proofs.Writing
import MailDialect.Settings
import MailDialect.Template
import MailDialect.Template.GrammarError
import MailDialect.Template.Printer
import MailDialect.Template.Reader
import MailDialect.Template.Reader.Block
import MailDialect.Template.Reader.Condition
import MailDialect.Template.Reader.Directive
import MailDialect.Template.Reader.Operand
import MailDialect.Text
import MailDialect.Text.CharLiteral
import MailDialect.Text.Quoted
import MailDialect.Text.Word
import MailDialect.Token
import MailDialect.Token.Lexeme
import MailDialect.Token.Problem
import MailDialect.Token.Scanner
import MailDialect.Token.Stream
import MailDialect.Unicode.Alphabetic
import MailDialect.Unicode.CombiningMark
import MailDialect.Unicode.DefaultIgnorable
import MailDialect.Unicode.Numeric
import MailDialect.Unicode.Printable
import MailDialect.Unicode.Ranges
import MailDialect.Unicode.WhiteSpace
