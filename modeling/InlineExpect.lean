import InlineExpect.Package.Fixture
import InlineExpect.Snapshot.Directory
import InlineExpect.Json.Printer
import InlineExpect.Proofs.Assertion.Extraction
import InlineExpect.Proofs.Boundary.Monotone
import InlineExpect.Proofs.Comment.Scanning
import InlineExpect.Proofs.Matching.Accounting
import InlineExpect.Proofs.Matching.Pairing
import InlineExpect.Proofs.Syntax.Storage
import InlineExpect.Proofs.Snapshot.Address
import InlineExpect.Proofs.Snapshot.Table
import InlineExpect.Proofs.Snapshot.Building
import InlineExpect.Proofs.Snapshot.Replay
import InlineExpect.Proofs.Environment.Memo
import InlineExpect.Proofs.Boundary.Dialogue
import InlineExpect.Proofs.Package.Steady
import InlineExpect.Proofs.Package.Sharing
import InlineExpect.Proofs.Assertion.Terminators
import InlineExpect.Proofs.Assertion.RoundTrip
import InlineExpect.Proofs.Environment.SingleFlight
import InlineExpect.Proofs.Environment.Alone
import InlineExpect.Proofs.Package.Lazy
import InlineExpect.Proofs.Boundary.Abort
import InlineExpect.Proofs.Comment.FirstOnLine
import InlineExpect.Proofs.Matching.StableSort
import InlineExpect.Proofs.Matching.Unordered
import InlineExpect.Proofs.Json.Members
import InlineExpect.Proofs.Json.Normal
import InlineExpect.Proofs.Options.Settings
import InlineExpect.Proofs.Options.RoundTrip
import InlineExpect.Proofs.Text.LineTable
import InlineExpect.Proofs.Comment.Brackets
import InlineExpect.Proofs.Comment.Lookahead
import InlineExpect.Proofs.Comment.Rewording
import InlineExpect.Proofs.Comment.Bytewise
import InlineExpect.Proofs.Comment.Bytewise.Loops
import InlineExpect.Proofs.Comment.Bytewise.Steps
import InlineExpect.Proofs.Comment.Bytewise.Progress
import InlineExpect.Proofs.Comment.Bytewise.Tokens
import InlineExpect.Proofs.Matching.Violation
import InlineExpect.Proofs.Matching.Fault
import InlineExpect.Proofs.Matching.Superseded
import InlineExpect.Proofs.Version.Selection
import InlineExpect.Proofs.Version.Reading
import InlineExpect.Proofs.Assertion.Form
import InlineExpect.Proofs.Assertion.Marker
import InlineExpect.Proofs.Comment.Division
import InlineExpect.Proofs.Diagnostic.Template
import InlineExpect.Proofs.Matching.Wording
import InlineExpect.Proofs.Package.Conclusion
import InlineExpect.Proofs.Text.ByteOrder
import InlineExpect.Proofs.Snapshot.Bounds
import InlineExpect.Proofs.Snapshot.Defect
import InlineExpect.Proofs.Environment.Clearing
import InlineExpect.Proofs.Snapshot.Truncation
import InlineExpect.Proofs.Diagnostic.Sorting
import InlineExpect.Proofs.Syntax.Width
import InlineExpect.Proofs.Snapshot.Steps
