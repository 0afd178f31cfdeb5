import WorkerLink.Descriptor.Json
import WorkerLink.Script.Blocking
import WorkerLink.Script.Logging
import WorkerLink.Script.Pieces
import WorkerLink.Script.Session
import WorkerLink.Script.Worker
import WorkerLink.Proofs.Channel.Accepting
import WorkerLink.Proofs.Channel.Invariant
import WorkerLink.Proofs.Channel.Admission
import WorkerLink.Proofs.Channel.Queues
import WorkerLink.Proofs.Frame.Encoding
import WorkerLink.Proofs.Channel.Sending
import WorkerLink.Proofs.Channel.Settling
import WorkerLink.Proofs.Channel.Binding
import WorkerLink.Proofs.Channel.Permits
import WorkerLink.Proofs.Channel.Standing
import WorkerLink.Proofs.Channel.Calm
import WorkerLink.Proofs.Channel.Preparing
import WorkerLink.Proofs.Channel.Alone
import WorkerLink.Proofs.Channel.Playing
import WorkerLink.Proofs.Channel.Outcome
import WorkerLink.Proofs.Json.Text
import WorkerLink.Proofs.Text.Digits
import WorkerLink.Proofs.Json.Scalars
import WorkerLink.Proofs.Json.RoundTrip
import WorkerLink.Proofs.Address.Ipv4
import WorkerLink.Proofs.Address.Ipv6
import WorkerLink.Proofs.Address.Sockets
import WorkerLink.Proofs.Descriptor.RoundTrip
import WorkerLink.Proofs.Frame.Polling
import WorkerLink.Proofs.Worker.Conversation
import WorkerLink.Proofs.Frame.Values
import WorkerLink.Proofs.Channel.Delivery
import WorkerLink.Proofs.Channel.Exclusion
import WorkerLink.Proofs.Channel.Ending
import WorkerLink.Proofs.Channel.Opening
import WorkerLink.Proofs.Channel.Teardown
import WorkerLink.Proofs.Channel.Answering
import WorkerLink.Proofs.Channel.Facts
import WorkerLink.Proofs.Channel.Shutdown
import WorkerLink.Proofs.Channel.Forward
import WorkerLink.Proofs.Channel.Accounting
import WorkerLink.Proofs.Channel.TurnedAway
import WorkerLink.Proofs.Channel.Latecomers
import WorkerLink.Proofs.Frame.RoundTrip
import WorkerLink.Proofs.Channel.Omitting
import WorkerLink.Proofs.Channel.Rejecting
import WorkerLink.Proofs.Channel.Relaying
import WorkerLink.Proofs.Channel.Disabling
import WorkerLink.Proofs.Channel.Releasing
import WorkerLink.Proofs.Channel.Finality
import WorkerLink.Proofs.Frame.Chunking
import WorkerLink.Proofs.Frame.Truncation
import WorkerLink.Proofs.Frame.Limits
import WorkerLink.Proofs.Text.Lossy
import WorkerLink.Proofs.Address.Alphabet
import WorkerLink.Proofs.Descriptor.SessionIds
import WorkerLink.Proofs.Descriptor.Grammar
import WorkerLink.Proofs.Json.Skip
import WorkerLink.Proofs.Descriptor.Json
import WorkerLink.Proofs.Channel.Verifying
import WorkerLink.Proofs.Channel.Visible
import WorkerLink.Proofs.Queue.History
import WorkerLink.Proofs.Worker.Emitting
import WorkerLink.Proofs.Channel.Echoing
import WorkerLink.Proofs.Channel.Offering
import WorkerLink.Proofs.Channel.Serving
import WorkerLink.Proofs.Gate.Threads
