import LiveQuery.Main
import LiveQuery.Program.Stage
import LiveQuery.Proofs.Json.Members
import LiveQuery.Proofs.Json.Kept
import LiveQuery.Proofs.Json.Decoding
import LiveQuery.Proofs.Query.Timer
import LiveQuery.Proofs.Query.Outcome
import LiveQuery.Proofs.Registry.World
import LiveQuery.Proofs.Registry.Polling
import LiveQuery.Proofs.Registry.Fetching
import LiveQuery.Proofs.Registry.Alone
import LiveQuery.Proofs.Registry.Register
import LiveQuery.Proofs.Registry.Disposal
import LiveQuery.Proofs.Registry.Playing
import LiveQuery.Proofs.Registry.Account
import LiveQuery.Proofs.Settings.Rereading
import LiveQuery.Proofs.Toml.Record
import LiveQuery.Proofs.Filter.Encoding
import LiveQuery.Proofs.Filter.Site
import LiveQuery.Proofs.Filter.Decoding
import LiveQuery.Proofs.Query.Ledger
import LiveQuery.Proofs.Registry.Delivery
import LiveQuery.Proofs.Registry.Watching
import LiveQuery.Proofs.Registry.Quiet
import LiveQuery.Proofs.LiveView.Scene
import LiveQuery.Proofs.LiveView.Release
import LiveQuery.Proofs.LiveView.Playing
import LiveQuery.Proofs.Settings.Precedence
import LiveQuery.Proofs.Request.BaseUrl
import LiveQuery.Proofs.Text.Glyph
import LiveQuery.Proofs.Arguments.Reading
import LiveQuery.Proofs.Arguments.Spelling
import LiveQuery.Proofs.Arguments.Options
import LiveQuery.Proofs.Json.Lexeme
import LiveQuery.Proofs.Json.Spelling
import LiveQuery.Proofs.Json.Printing
import LiveQuery.Proofs.Registry.Loading
import LiveQuery.Proofs.Registry.Spacing
import LiveQuery.Proofs.Registry.Transitions
import LiveQuery.Proofs.LiveView.Reporting
import LiveQuery.Proofs.Registry.Creation
import LiveQuery.Proofs.Registry.Pausing
import LiveQuery.Proofs.Registry.Releasing
import LiveQuery.Proofs.Ask.Course
import LiveQuery.Proofs.Ask.Playing
import LiveQuery.Proofs.Request.Joint
import LiveQuery.Proofs.Filter.Flags
import LiveQuery.Proofs.Filter.Writing
import LiveQuery.Proofs.Json.OneLine
import LiveQuery.Proofs.Query.Line
import LiveQuery.Proofs.Text.Order
import LiveQuery.Proofs.Settings.Directives
import LiveQuery.Proofs.Filter.Building
import LiveQuery.Proofs.Settings.Template
import LiveQuery.Proofs.Files.Writing
import LiveQuery.Proofs.Settings.Initialising
