import DeviceBus.Main
import DeviceBus.Proofs.Aes.Blocks
import DeviceBus.Proofs.Aes.Inverse
import DeviceBus.Proofs.Aes.Permutation
import DeviceBus.Proofs.Broker.KeepAlive
import DeviceBus.Proofs.Broker.Queue
import DeviceBus.Proofs.Bytes.Base64
import DeviceBus.Proofs.Bytes.Canonical
import DeviceBus.Proofs.CommandLine.Setup
import DeviceBus.Proofs.Decimal.Integer
import DeviceBus.Proofs.Envelope.Aliases
import DeviceBus.Proofs.Envelope.Samples
import DeviceBus.Proofs.Envelope.Variation
import DeviceBus.Proofs.Json.Grammar
import DeviceBus.Proofs.Json.Numbers
import DeviceBus.Proofs.Json.Rearrangement
import DeviceBus.Proofs.Json.RoundTrip
import DeviceBus.Proofs.Json.Strings
import DeviceBus.Proofs.Payload.Acceptance
import DeviceBus.Proofs.Payload.Reencryption
import DeviceBus.Proofs.Payload.RoundTrip
import DeviceBus.Proofs.Publication.Limits
import DeviceBus.Proofs.Publication.Protocol
import DeviceBus.Proofs.Reading.Classes
import DeviceBus.Proofs.Reading.RoundTrip
import DeviceBus.Proofs.Request.ReadBack
import DeviceBus.Proofs.Request.WireImage
import DeviceBus.Proofs.Session.Backlog
import DeviceBus.Proofs.Session.Conduct
import DeviceBus.Proofs.Session.Continuation
import DeviceBus.Proofs.Session.Delivery
import DeviceBus.Proofs.Session.Entries
import DeviceBus.Proofs.Session.Farewell
import DeviceBus.Proofs.Session.FinalStatus
import DeviceBus.Proofs.Session.History
import DeviceBus.Proofs.Session.Interleaving
import DeviceBus.Proofs.Session.Lifecycle
import DeviceBus.Proofs.Session.Masking
import DeviceBus.Proofs.Session.Progress
import DeviceBus.Proofs.Session.RoundTrip
import DeviceBus.Proofs.Session.Routing
import DeviceBus.Proofs.Session.Secrecy
import DeviceBus.Proofs.Session.Stuttering
import DeviceBus.Proofs.Session.Unread
import DeviceBus.Proofs.Text.Blank
import DeviceBus.Proofs.Text.Canonical
import DeviceBus.Proofs.Topic.Inverse
import DeviceBus.Proofs.Topic.Parts
import DeviceBus.Proofs.Topic.Paths
import DeviceBus.Proofs.Topic.Requests
