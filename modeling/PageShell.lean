import PageShell.Command.Builtin
import PageShell.Command.Interpreter
import PageShell.Command.Registry
import PageShell.Command.Token
import PageShell.Config
import PageShell.Content.Markup
import PageShell.Content.News
import PageShell.Content.Profile
import PageShell.Document.Attributes
import PageShell.Document.Node
import PageShell.Document.Stored
import PageShell.History.EntryId
import PageShell.History.State
import PageShell.History.Stored
import PageShell.Json.Basic
import PageShell.Json.Lexeme
import PageShell.Json.Numeral
import PageShell.Json.Reader
import PageShell.Json.Writer
import PageShell.Number.Basic
import PageShell.Number.Conversion
import PageShell.Number.Format
import PageShell.Number.Rounding
import PageShell.Number.Shortest
import PageShell.Page.Host
import PageShell.Page.Site
import PageShell.Presentation.Basic
import PageShell.Presentation.Style
import PageShell.Session.Basic
import PageShell.Session.Mailbox
import PageShell.Shape
import PageShell.Text.Blank
import PageShell.Text.Quoted
import PageShell.Text.Unprintable
import PageShell.Text.Width
import PageShell.Toml.Document
import PageShell.Toml.Lexeme
import PageShell.Toml.Value
import PageShell.View.Primitive
import PageShell.View.Render
import PageShell.View.Terminal
import PageShell.View.Tree
import PageShell.Proofs.Command.Grammar
import PageShell.Proofs.Document.Attributes
import PageShell.Proofs.Document.Grammar
import PageShell.Proofs.Document.RoundTrip
import PageShell.Proofs.History.Replay
import PageShell.Proofs.Json.Layout
import PageShell.Proofs.Json.Lexeme
import PageShell.Proofs.Json.Numeral
import PageShell.Proofs.Json.RoundTrip
import PageShell.Proofs.Number.Exact
import PageShell.Proofs.Number.Whole
import PageShell.Proofs.Session.Delivery
import PageShell.Proofs.Session.Parking
import PageShell.Proofs.Session.Run
import PageShell.Proofs.Session.Room
import PageShell.Proofs.Page.Startup
import PageShell.Proofs.Command.Dispatch
import PageShell.Proofs.History.Answers
import PageShell.Proofs.Json.Nesting
import PageShell.Proofs.Document.Levels
import PageShell.Proofs.Document.TextMember
import PageShell.Proofs.History.RoundTrip
import PageShell.Proofs.Presentation.Recognised
import PageShell.Proofs.Presentation.Readings
import PageShell.Proofs.Content.Grammar
import PageShell.Proofs.Content.Fits
import PageShell.Proofs.History.Saved
import PageShell.Proofs.Command.Spelling
import PageShell.Proofs.Command.Buttons
import PageShell.Proofs.View.Leaves
import PageShell.Proofs.View.Vocabulary
import PageShell.Proofs.Command.Registration
import PageShell.Proofs.History.Spacing
import PageShell.Proofs.Content.Understood
import PageShell.Proofs.Page.Hosted
import PageShell.Proofs.View.Pruned
import PageShell.Proofs.Json.Blanks
import PageShell.Proofs.Presentation.StoredForm
import PageShell.Proofs.Number.Integer
import PageShell.Proofs.Number.Order
import PageShell.Proofs.Number.Conversion
import PageShell.Proofs.Presentation.Level
import PageShell.Proofs.Toml.Integers
import PageShell.Proofs.Toml.Keys
import PageShell.Proofs.Toml.Kept
import PageShell.Proofs.Page.Capacity
import PageShell.Proofs.Command.Offsets
import PageShell.Proofs.Config.Paths
import PageShell.Proofs.Document.Builder
import PageShell.Proofs.Document.WholeValues
