import Typeset.Conversion.Report
import Typeset.Json.Reader
import Typeset.Log.Message
import Typeset.Log.Registry
import Typeset.Log.Timestamp
import Typeset.Markup.Loose
import Typeset.Proofs.Bracket.Render
import Typeset.Proofs.Comment.Clash
import Typeset.Proofs.Footnote.Expansion
import Typeset.Proofs.Render.Reference
import Typeset.Proofs.Source.RoundTrip
import Typeset.Proofs.Token.Canonical
import Typeset.Proofs.Markdown.Readable
import Typeset.Proofs.Conversion.FrontMatter
import Typeset.Proofs.Conversion.Total
import Typeset.Proofs.Conversion.Issues
import Typeset.Proofs.Conversion.Failures
import Typeset.Proofs.Conversion.Course
import Typeset.Proofs.Conversion.Protocol
import Typeset.Proofs.Source.Remainder
import Typeset.Proofs.Token.Group
import Typeset.Proofs.Token.Piece
import Typeset.Proofs.Token.NoteMark
import Typeset.Proofs.Token.Run
import Typeset.Proofs.Token.Normal
import Typeset.Proofs.Token.Shortcut
import Typeset.Proofs.Source.Shortcut
import Typeset.Proofs.Token.Pair
import Typeset.Proofs.Conversion.Unreferring
import Typeset.Proofs.Source.EscapedBracket
import Typeset.Proofs.Source.LineEnding
import Typeset.Proofs.Source.FormattedLabel
import Typeset.Proofs.Math.Spacing
import Typeset.Proofs.Math.Argument
import Typeset.Proofs.Math.Turn
import Typeset.Proofs.Math.Stream
import Typeset.Proofs.Math.Call
import Typeset.Proofs.Latex.Legible
import Typeset.Proofs.Math.Delimiter
import Typeset.Proofs.Math.Display
import Typeset.Proofs.Fault.LeftOut
import Typeset.Proofs.Image.Helper
import Typeset.Proofs.Layout.Lookalike
import Typeset.Proofs.Conversion.LeadingTitle
import Typeset.Proofs.Log.Calls
import Typeset.Proofs.Markup.Escaped
import Typeset.Proofs.Markup.Fence
import Typeset.Proofs.Layout.Deeper
import Typeset.Proofs.Code.Verbatim
import Typeset.Proofs.Footnote.Closing
import Typeset.Proofs.Source.Account
import Typeset.Proofs.Source.Untouched
import Typeset.Proofs.Source.Place
import Typeset.Proofs.Source.Fenced
import Typeset.Proofs.Source.Admitted
import Typeset.Proofs.Source.MetadataBlock
import Typeset.Proofs.Token.SourceForm
import Typeset.Proofs.Token.Idempotent
import Typeset.Proofs.Token.Leaves
import Typeset.Proofs.Math.Names
import Typeset.Proofs.Math.Script
import Typeset.Proofs.Math.Inert
import Typeset.Proofs.Layout.Outline
import Typeset.Proofs.Layout.Heading
import Typeset.Proofs.Conversion.Unresolved
import Typeset.Proofs.Render.Table
import Typeset.Proofs.FrontMatter.Fields
import Typeset.Proofs.Log.Fields
import Typeset.Proofs.Date.Calendar
import Typeset.Proofs.Locale.Code
