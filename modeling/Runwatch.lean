import Runwatch.Cli.Arguments
import Runwatch.Cli.Command
import Runwatch.Cli.Error
import Runwatch.Cli.KeyValue
import Runwatch.Cli.Session
import Runwatch.Config.Credentials
import Runwatch.Config.File
import Runwatch.Config.Settings
import Runwatch.Crypto.Der
import Runwatch.Crypto.Ecdsa
import Runwatch.Crypto.P256
import Runwatch.Crypto.PrivateKey
import Runwatch.Crypto.Sha256
import Runwatch.Double.Basic
import Runwatch.Double.Shortest
import Runwatch.Event.Completion
import Runwatch.Files.Edit
import Runwatch.Files.Fault
import Runwatch.Files.Path
import Runwatch.Files.Tree
import Runwatch.Json.Decode
import Runwatch.Json.Reader
import Runwatch.Json.Skim
import Runwatch.Json.Value
import Runwatch.Json.Writer
import Runwatch.Layout
import Runwatch.Main
import Runwatch.Marker.Detector
import Runwatch.Net.Host
import Runwatch.Net.Http
import Runwatch.Net.Percent
import Runwatch.Net.Punycode
import Runwatch.Net.Url
import Runwatch.Proofs.Telemetry.Characters
import Runwatch.Proofs.Telemetry.Feeding
import Runwatch.Proofs.Telemetry.Framing
import Runwatch.Proofs.Text.Utf8
import Runwatch.Push.Dispatch
import Runwatch.Push.Error
import Runwatch.Push.Exchange
import Runwatch.Push.Notice
import Runwatch.Push.Payload
import Runwatch.Push.Plan
import Runwatch.Push.ProviderToken
import Runwatch.Push.Reply
import Runwatch.Push.Request
import Runwatch.Push.Service
import Runwatch.Store.Error
import Runwatch.Store.File
import Runwatch.Store.Interface
import Runwatch.Store.Memory
import Runwatch.Store.Table
import Runwatch.Telemetry.Detector
import Runwatch.Telemetry.Error
import Runwatch.Telemetry.Event
import Runwatch.Telemetry.Lookout
import Runwatch.Telemetry.Mailbox
import Runwatch.Telemetry.Observers
import Runwatch.Telemetry.Span
import Runwatch.Telemetry.Stream
import Runwatch.Telemetry.Tail
import Runwatch.Telemetry.Watch
import Runwatch.Text.Base64
import Runwatch.Text.Blank
import Runwatch.Text.CaseTable
import Runwatch.Text.Decimal
import Runwatch.Text.Hex
import Runwatch.Text.Lowercase
import Runwatch.Text.PrintableTable
import Runwatch.Text.Quoted
import Runwatch.Text.Range
import Runwatch.Text.Utf8
import Runwatch.Time.Instant
import Runwatch.Time.Rfc3339
import Runwatch.Token.Environment
import Runwatch.Token.Record
import Runwatch.Toml.Node
import Runwatch.Toml.Reader
import Runwatch.Toml.Scalar
import Runwatch.Proofs.Json.Passage
import Runwatch.Proofs.Telemetry.Objects
import Runwatch.Proofs.Telemetry.Following
import Runwatch.Proofs.Telemetry.Chronicle
import Runwatch.Proofs.Telemetry.Ledger
import Runwatch.Proofs.Telemetry.Delivery
import Runwatch.Proofs.Store.History
import Runwatch.Proofs.Telemetry.Membership
import Runwatch.Proofs.Text.Decimal
import Runwatch.Proofs.Text.Blank
import Runwatch.Proofs.Time.Calendar
import Runwatch.Proofs.Time.Written
import Runwatch.Proofs.Json.RoundTrip
import Runwatch.Proofs.Json.Records
import Runwatch.Proofs.Json.Forms
import Runwatch.Proofs.Store.Agreement
import Runwatch.Proofs.Push.Effect
import Runwatch.Proofs.Marker.Vigil
import Runwatch.Proofs.Telemetry.Outlook
import Runwatch.Proofs.Telemetry.Waiting
import Runwatch.Proofs.Push.Account
import Runwatch.Proofs.Telemetry.Recreation
import Runwatch.Proofs.Telemetry.Shutdown
import Runwatch.Proofs.Telemetry.Silence
import Runwatch.Proofs.Telemetry.Recognition
import Runwatch.Proofs.Push.Sharing
import Runwatch.Proofs.Push.Fates
import Runwatch.Proofs.Store.Chronology
import Runwatch.Proofs.Text.Base64
import Runwatch.Proofs.Push.Minting
import Runwatch.Proofs.Push.Wire
import Runwatch.Proofs.Json.Skimming
import Runwatch.Proofs.Json.Entries
import Runwatch.Proofs.Push.Reasons
import Runwatch.Proofs.Telemetry.Restart
import Runwatch.Proofs.Marker.Grain
import Runwatch.Proofs.Net.Percent
import Runwatch.Proofs.Net.Segments
import Runwatch.Proofs.Net.Origin
import Runwatch.Proofs.Push.Addressing
import Runwatch.Proofs.Files.Names
import Runwatch.Proofs.Marker.Naming
import Runwatch.Proofs.Push.Wording
import Runwatch.Proofs.Store.Registering
import Runwatch.Proofs.Cli.Tailing
import Runwatch.Proofs.Cli.Printing
import Runwatch.Proofs.Text.Lowercase
import Runwatch.Proofs.Token.Naming
import Runwatch.Proofs.Config.Supplied
import Runwatch.Proofs.Toml.Distinct
import Runwatch.Proofs.Config.Overlay
import Runwatch.Proofs.Cli.Scanning
import Runwatch.Proofs.Cli.Writing
import Runwatch.Proofs.Telemetry.Texts
import Runwatch.Proofs.Telemetry.Buffer
import Runwatch.Proofs.Double.Nearest
import Runwatch.Proofs.Double.Numeral
import Runwatch.Proofs.Json.Regular
import Runwatch.Proofs.Json.Spelling
