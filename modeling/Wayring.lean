import Wayring.Error
import Wayring.Metadata
import Wayring.Foundation.LinearProbing
import Wayring.Objects.Table
import Wayring.Objects.TableMap
import Wayring.Objects.TableRuns
import Wayring.Foundation.Chain
import Wayring.Objects.ClientIds
import Wayring.Objects.ClientObjects
import Wayring.Objects.ClientView
import Wayring.Objects.NamespaceMap
import Wayring.Objects.ClientCoupling
import Wayring.Objects.ClientRuns
import Wayring.Objects.SharedPool
import Wayring.Objects.SharedOwnership
import Wayring.Objects.SharedRemoval
import Wayring.Objects.SharedRefinement
import Wayring.Objects.SharedSteps
import Wayring.Objects.SharedRuns
import Wayring.Objects.SharedIsolation
import Wayring.Objects.SharedStore
import Wayring.Foundation.Arena
import Wayring.Shm.Store
import Wayring.Shm.Lifetime
import Wayring.Shm.Consistency
import Wayring.Shm.Operations
import Wayring.Shm.Accesses
import Wayring.Shm.Runs
import Wayring.Shm.Ends
import Wayring.Foundation.LeasePool
import Wayring.Transport.Pools
import Wayring.Transport.Ancillary
import Wayring.Transport.Queue
import Wayring.Foundation.LeaseChain
import Wayring.Transport.FdStream
import Wayring.Transport.BlockStream
import Wayring.Transport.Reserved
import Wayring.Transport.QueueStream
import Wayring.Codec.Signature
import Wayring.Codec.Decoding
import Wayring.Transport.Ownership
import Wayring.Connection.Actor
import Wayring.Reactor.Reactor
import Wayring.Reactor.Directory
import Wayring.Codec.Encoding
import Wayring.Connection.ProtocolError
import Wayring.Reactor.Deferred
import Wayring.Reactor.Operations
import Wayring.Reactor.Calls
import Wayring.Reactor.Parking
import Wayring.Connection.Effects
import Wayring.Reactor.Wakeups
import Wayring.Transport.Shared
import Wayring.Transport.Framing
import Wayring.Reactor.Outstanding
import Wayring.Reactor.Kernel
import Wayring.Server.Session
import Wayring.Server.Dispatch
import Wayring.Server.Requests
import Wayring.Server.Stream
import Wayring.Objects.ServerIds
import Wayring.Foundation.Cascade
import Wayring.Objects.ServerObjects
import Wayring.Objects.Teardown
import Wayring.Foundation.LeaseOwners
import Wayring.Transport.Accounts
import Wayring.Transport.Messages
import Wayring.Transport.Contents
import Wayring.Transport.DirectEncoding
import Wayring.Codec.Acceptance
import Wayring.Client.Constructors
import Wayring.Transport.Fragmentation
import Wayring.Codec.Preflight
import Wayring.Debug
import Wayring.Objects.LocalIds
import Wayring.Objects.ServerStore
import Wayring.Server.Registries
import Wayring.Transport.ControlRecords
import Wayring.Client.Dispatch
import Wayring.Foundation.Scanning
import Wayring.Reactor.Admission
import Wayring.Reactor.Preparation
import Wayring.Scanner.Document
import Wayring.Scanner.Drafts
import Wayring.Scanner.Generator
import Wayring.Scanner.Quoting
import Wayring.Server.Admission
import Wayring.Server.Hosting
import Wayring.Shm.Faults
import Wayring.Codec.Frames
import Wayring.Codec.RoundTrip
import Wayring.Codec.Relaying
import Wayring.Foundation.Lifetimes
import Wayring.Foundation.Outbox
import Wayring.Server.History
import Wayring.Transport.EndToEnd
import Wayring.Foundation.Lanes
import Wayring.Foundation.Ledger
import Wayring.Server.Barriers
import Wayring.Server.Globals
import Wayring.Server.Offers
import Wayring.Server.Publisher
import Wayring.Server.Publication
import Wayring.Server.Guests
import Wayring.Server.Answers
import Wayring.Server.Announcements
import Wayring.Server.Withdrawals
import Wayring.Server.Draining
import Wayring.Server.Tenancy
import Wayring.Server.Turnover
import Wayring.Server.Ordering
import Wayring.Client.Retirement
import Wayring.Server.Destruction
