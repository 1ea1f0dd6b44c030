import RemoteCall.Ascii
import RemoteCall.Text.Utf8
import RemoteCall.Text.Blank
import RemoteCall.Text.Quoted
import RemoteCall.Decimal.Notation
import RemoteCall.Table
import RemoteCall.Data.Value
import RemoteCall.Data.Schema
import RemoteCall.Json.Literal
import RemoteCall.Json.Numeral
import RemoteCall.Json.Reader
import RemoteCall.Json.Record
import RemoteCall.Json.Writer
import RemoteCall.MessagePack.Reader
import RemoteCall.MessagePack.Typed
import RemoteCall.MessagePack.Writer
import RemoteCall.Codec.Enveloped
import RemoteCall.Client
import RemoteCall.Server.Serve
import RemoteCall.Server.Builder
import RemoteCall.Proofs.Response
import RemoteCall.Proofs.Server.Runs
import RemoteCall.Proofs.Data.Portable
import RemoteCall.Proofs.Json.Literal
import RemoteCall.Proofs.Json.Numeral
import RemoteCall.Proofs.Json.Reader
import RemoteCall.Proofs.Json.Envelope
import RemoteCall.Proofs.MessagePack.Item
import RemoteCall.Proofs.MessagePack.Reader
import RemoteCall.Proofs.MessagePack.Envelope
import RemoteCall.Proofs.Codec.Format
import RemoteCall.Proofs.Codec.Adapter
import RemoteCall.Proofs.Codec.Response
import RemoteCall.Proofs.Client
import RemoteCall.Proofs.Codec.Answer
import RemoteCall.Proofs.Server.Blind
import RemoteCall.Proofs.Server.Simulation
import RemoteCall.Proofs.Server.Formats
import RemoteCall.Proofs.Service.Name
import RemoteCall.Proofs.Text.Order
import RemoteCall.Proofs.Service.History
import RemoteCall.Proofs.Server.Performance
import RemoteCall.Proofs.Server.Installation
import RemoteCall.Proofs.Server.Arising
import RemoteCall.Proofs.Server.Receivers
import RemoteCall.Proofs.Server.Session
import RemoteCall.Proofs.Server.Responses
import RemoteCall.Proofs.Server.Dialogue
import RemoteCall.Proofs.Server.Building
import RemoteCall.Proofs.Server.Unread
import RemoteCall.Proofs.Server.ContentType
import RemoteCall.Proofs.Text.Blank
import RemoteCall.Proofs.Server.Negotiation
import RemoteCall.Proofs.Envelope.Projection
import RemoteCall.Proofs.Json.Passing
import RemoteCall.Proofs.Codec.Projection
import RemoteCall.Proofs.Data.Output
import RemoteCall.Proofs.Json.Closing
import RemoteCall.Proofs.MessagePack.Extent
import RemoteCall.Proofs.MessagePack.Framing
import RemoteCall.Proofs.Codec.Truncation
import RemoteCall.Proofs.Json.Legibility
import RemoteCall.Proofs.Codec.Verdict
import RemoteCall.Proofs.Codec.Laziness
import RemoteCall.Proofs.Server.Commuting
import RemoteCall.Proofs.Service.DefaultName
