import OpcSession.AttributeId
import OpcSession.Binary64.Basic
import OpcSession.Binary64.Shortest
import OpcSession.ByteString
import OpcSession.Cache.Basic
import OpcSession.Cache.Store
import OpcSession.Client.Call
import OpcSession.Client.Channel
import OpcSession.Client.Error
import OpcSession.Credentials
import OpcSession.DataValue
import OpcSession.Duration
import OpcSession.Endpoint
import OpcSession.Json.Basic
import OpcSession.Json.Printer
import OpcSession.Json.Reader
import OpcSession.Json.Shape
import OpcSession.Message.Envelope
import OpcSession.Message.Header
import OpcSession.Message.Request
import OpcSession.Message.Response
import OpcSession.NodeId.Basic
import OpcSession.NodeId.Text
import OpcSession.Proofs.Cache.Order
import OpcSession.Proofs.Cache.Uses
import OpcSession.Proofs.Client.Abstaining
import OpcSession.Proofs.Client.Errands
import OpcSession.Proofs.Client.Faults
import OpcSession.Proofs.Client.Following
import OpcSession.Proofs.Client.Frame
import OpcSession.Proofs.Client.Moves
import OpcSession.Proofs.Client.Release
import OpcSession.Proofs.Client.Watching
import OpcSession.Proofs.Session.Answering
import OpcSession.Proofs.Session.Callers
import OpcSession.Proofs.Session.Course
import OpcSession.Proofs.Session.Custody
import OpcSession.Proofs.Session.Edges
import OpcSession.Proofs.Session.Entering
import OpcSession.Proofs.Session.Exchanges
import OpcSession.Proofs.Session.Invariant
import OpcSession.Proofs.Session.Parting
import OpcSession.Proofs.Session.Provenance
import OpcSession.Proofs.Session.Publishing
import OpcSession.Proofs.Session.Refusals
import OpcSession.Proofs.Session.Run
import OpcSession.Proofs.Session.Signing
import OpcSession.Proofs.Session.Steps
import OpcSession.Proofs.Session.Stranding
import OpcSession.Proofs.Session.Transitions
import OpcSession.Proofs.Session.Warning
import OpcSession.Security
import OpcSession.Session.Basic
import OpcSession.Session.Engine
import OpcSession.Session.Error
import OpcSession.Session.Event
import OpcSession.Session.Listener
import OpcSession.Session.Machine
import OpcSession.Session.Services
import OpcSession.Session.State
import OpcSession.Settings
import OpcSession.Simulation.Answers
import OpcSession.Simulation.ClientRun
import OpcSession.Simulation.Peer
import OpcSession.Simulation.ScriptedChannel
import OpcSession.Simulation.SessionRun
import OpcSession.StatusCode
import OpcSession.Subscription.Basic
import OpcSession.Subscription.Program
import OpcSession.Subscription.Registry
import OpcSession.Text.Digits
import OpcSession.Text.Literal
import OpcSession.Text.Standalone
import OpcSession.Text.Utf8
import OpcSession.Timer.Basic
import OpcSession.Timer.Program
import OpcSession.Transport
import OpcSession.UserToken
import OpcSession.Proofs.Text.Digits
import OpcSession.Proofs.Text.Utf8
import OpcSession.Proofs.Binary64.Decimal
import OpcSession.Proofs.Json.Numeral
import OpcSession.Proofs.Json.Reading
import OpcSession.Proofs.Json.Shapes
import OpcSession.Proofs.Message.Parts
import OpcSession.Proofs.Message.Wire
import OpcSession.Proofs.Client.Traffic
import OpcSession.Proofs.Client.Matching
import OpcSession.Proofs.Client.Correlation
import OpcSession.Proofs.Cache.Contents
import OpcSession.Proofs.Cache.Bounds
import OpcSession.Proofs.NodeId.Text
import OpcSession.Proofs.NodeId.Cuts
import OpcSession.Proofs.NodeId.Grammar
import OpcSession.Proofs.Session.Credentials
import OpcSession.Proofs.Session.Prospects
import OpcSession.Proofs.Client.Bystanders
import OpcSession.Proofs.Client.Aside
import OpcSession.Proofs.Client.Inquiry
import OpcSession.Proofs.Client.Dealings
import OpcSession.Proofs.Client.Staleness
import OpcSession.Proofs.Client.OwnValue
import OpcSession.Proofs.Client.Records
import OpcSession.Proofs.Client.Transparency
import OpcSession.Proofs.Client.Aftermath
import OpcSession.Proofs.Session.Confinement
import OpcSession.Proofs.Session.Condemning
import OpcSession.Proofs.Session.Backoff
import OpcSession.Proofs.Client.Overflow
import OpcSession.Proofs.Subscription.Registry
import OpcSession.Proofs.Subscription.Books
import OpcSession.Proofs.Client.Transfer
import OpcSession.Proofs.Lists
import OpcSession.Proofs.Timer.Firing
import OpcSession.Proofs.Timer.Programs
import OpcSession.Proofs.Client.Stations
import OpcSession.Proofs.Client.Standing
import OpcSession.Proofs.Client.Cables
import OpcSession.Proofs.Client.Wiring
import OpcSession.Proofs.Client.Rewiring
import OpcSession.Proofs.Client.DeadLinks
import OpcSession.Proofs.Cache.Consistency
import OpcSession.Proofs.Client.Handles
import OpcSession.Proofs.Settings.Timeouts
import OpcSession.Proofs.Message.Lost
import OpcSession.Proofs.Client.Frames
import OpcSession.Proofs.Client.HandingOver
