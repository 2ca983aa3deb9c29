import RemoteCall.Bytes
import RemoteCall.Client.Batch
import RemoteCall.Client.Call
import RemoteCall.Client.Config
import RemoteCall.Client.Description
import RemoteCall.Client.Exchange
import RemoteCall.Client.Future
import RemoteCall.Client.Loopback
import RemoteCall.Client.Machine
import RemoteCall.Client.Method
import RemoteCall.Client.Notice
import RemoteCall.Client.Pool
import RemoteCall.Client.PoolTrial
import RemoteCall.Client.Session.Schedule
import RemoteCall.Client.Session.State
import RemoteCall.Client.Session.Steps
import RemoteCall.Error
import RemoteCall.Message.Request
import RemoteCall.Message.Response
import RemoteCall.Naming
import RemoteCall.Proofs.Bytes
import RemoteCall.Proofs.Client.Accounts
import RemoteCall.Proofs.Client.Attribution
import RemoteCall.Proofs.Client.Batch.Course
import RemoteCall.Proofs.Client.Exposure
import RemoteCall.Proofs.Client.Holdings
import RemoteCall.Proofs.Client.Life.Cancellation
import RemoteCall.Proofs.Client.Life.Cloning
import RemoteCall.Proofs.Client.Life.Cycle
import RemoteCall.Proofs.Client.Life.Execution
import RemoteCall.Proofs.Client.Life.Requesting
import RemoteCall.Proofs.Client.Life.Steps
import RemoteCall.Proofs.Client.Moves.Batch
import RemoteCall.Proofs.Client.Moves.Call
import RemoteCall.Proofs.Client.Moves.Holding
import RemoteCall.Proofs.Client.Pool.Safety
import RemoteCall.Proofs.Client.Pool.Users
import RemoteCall.Proofs.Client.Progress
import RemoteCall.Proofs.Client.Registration
import RemoteCall.Proofs.Client.Requests
import RemoteCall.Proofs.Client.Results
import RemoteCall.Proofs.Client.Sending
import RemoteCall.Proofs.Client.Settling
import RemoteCall.Proofs.Client.Step
import RemoteCall.Proofs.Client.Team
import RemoteCall.Proofs.Client.Traffic
import RemoteCall.Proofs.Client.World
import RemoteCall.Proofs.Failure
import RemoteCall.Proofs.Message.Parameters
import RemoteCall.Proofs.Message.Request
import RemoteCall.Proofs.Message.Response
import RemoteCall.Proofs.Outcome
import RemoteCall.Proofs.Success
import RemoteCall.Proofs.Text.Order
import RemoteCall.Proofs.Typed.Assembling
import RemoteCall.Proofs.Typed.Cache
import RemoteCall.Proofs.Typed.Data
import RemoteCall.Proofs.Typed.Delegating
import RemoteCall.Proofs.Typed.Generic
import RemoteCall.Proofs.Typed.Graph
import RemoteCall.Proofs.Typed.Growing
import RemoteCall.Proofs.Typed.History
import RemoteCall.Proofs.Typed.Linked
import RemoteCall.Proofs.Typed.Reading
import RemoteCall.Proofs.Typed.Resolving
import RemoteCall.Proofs.Typed.RoundTrip
import RemoteCall.Proofs.Typed.Searching
import RemoteCall.Proofs.Typed.Vocabulary
import RemoteCall.Proofs.Typed.Writing
import RemoteCall.Proofs.Value.Canonical
import RemoteCall.Proofs.Value.Fields
import RemoteCall.Proofs.Value.Grammar
import RemoteCall.Proofs.Value.RoundTrip
import RemoteCall.Proofs.Value.Writing
import RemoteCall.Proofs.Wire.Failing
import RemoteCall.Proofs.Wire.Mirror
import RemoteCall.Proofs.Wire.Reading
import RemoteCall.Proofs.Wire.Recognizer
import RemoteCall.Proofs.Wire.Skipping
import RemoteCall.Proofs.Wire.Tree
import RemoteCall.Proofs.Wire.Unambiguous
import RemoteCall.Proofs.Wire.Verdict
import RemoteCall.Proofs.Wire.Writing
import RemoteCall.Text.CodeRange
import RemoteCall.Text.Extender
import RemoteCall.Text.Hex
import RemoteCall.Text.Json
import RemoteCall.Text.Quoted
import RemoteCall.Text.Unassigned
import RemoteCall.Text.Uppercase
import RemoteCall.Text.Utf8
import RemoteCall.Text.Visible
import RemoteCall.Transport.Address
import RemoteCall.Transport.Frame
import RemoteCall.Typed.Adapter
import RemoteCall.Typed.Assembly
import RemoteCall.Typed.Instant
import RemoteCall.Typed.Registry
import RemoteCall.Typed.Type
import RemoteCall.Value
import RemoteCall.Value.Codec
import RemoteCall.Wire.Reader
import RemoteCall.Wire.Token
import RemoteCall.Wire.Writer
import RemoteCall.Proofs.Client.Batch.Script
import RemoteCall.Proofs.Client.Batch.Pipelining
import RemoteCall.Proofs.Client.Batch.Smooth
import RemoteCall.Proofs.Client.Batch.Completion
import RemoteCall.Proofs.Typed.Verdict
import RemoteCall.Proofs.Wire.Entries
import RemoteCall.Proofs.Typed.Members
import RemoteCall.Proofs.Message.Passes
import RemoteCall.Proofs.Message.Decoders
import RemoteCall.Proofs.Message.Envelope
import RemoteCall.Proofs.Value.Discarding
import RemoteCall.Proofs.Typed.Instants
import RemoteCall.Proofs.Wire.Refusals
import RemoteCall.Proofs.Value.Underway
import RemoteCall.Proofs.Typed.Announcing
import RemoteCall.Proofs.Reader.Peeking
import RemoteCall.Proofs.Reader.Operations
import RemoteCall.Proofs.Reader.Bounds
import RemoteCall.Proofs.Reader.Misuse
import RemoteCall.Proofs.Wire.TreeWriting
import RemoteCall.Proofs.Typed.TreeWriting
import RemoteCall.Proofs.Typed.Recoding
import RemoteCall.Proofs.Transport.Framing
import RemoteCall.Proofs.Client.Composing
import RemoteCall.Proofs.Reader.Advancing
import RemoteCall.Proofs.Typed.Unrolling
import RemoteCall.Proofs.Client.Rewinding
import RemoteCall.Proofs.Client.Afterwards
import RemoteCall.Proofs.Naming
import RemoteCall.Proofs.Client.Session.Change
import RemoteCall.Proofs.Client.Session.Deeds
import RemoteCall.Proofs.Client.Session.Refusal
import RemoteCall.Proofs.Client.Session.Construction
import RemoteCall.Proofs.Client.Batch.Forestalled
import RemoteCall.Proofs.Client.Futures.Poll
import RemoteCall.Proofs.Client.Futures.Scene
import RemoteCall.Proofs.Client.Futures.Tending
import RemoteCall.Proofs.Client.Futures.Course
import RemoteCall.Proofs.Client.Futures.Clones
import RemoteCall.Proofs.Client.Futures.Contract
