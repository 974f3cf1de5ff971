import WordStm.Address
import WordStm.Identity
import WordStm.Failure
import WordStm.Layout
import WordStm.RegionConfig
import WordStm.Digest
import WordStm.Machine
import WordStm.Segment
import WordStm.Memory
import WordStm.SegmentTable
import WordStm.AddressFilter
import WordStm.TransactionLog
import WordStm.Transaction
import WordStm.Commit
import WordStm.Metrics
import WordStm.Region.Basic
import WordStm.Region.Operation
import WordStm.Session
import WordStm.Program
import WordStm.Binary64
import WordStm.Binary64.Shortest
import WordStm.Text.Unseen
import WordStm.Text.Quoted
import WordStm.Inspect
import WordStm.Data
import WordStm.Toml.Reader
import WordStm.Toml.Table
import WordStm.Toml.Scalar
import WordStm.Toml.Document
import WordStm.ConfigText
import WordStm.Proofs.Filter
import WordStm.Proofs.WriteSet
import WordStm.Proofs.Table
import WordStm.Proofs.Cells
import WordStm.Proofs.Locking
import WordStm.Proofs.Commit
import WordStm.Proofs.Image
import WordStm.Proofs.History
import WordStm.Proofs.Access
import WordStm.Proofs.Operation
import WordStm.Proofs.Validity
import WordStm.Proofs.Settlement
import WordStm.Proofs.Buffering
import WordStm.Proofs.Serial
import WordStm.Proofs.Drafts
import WordStm.Proofs.Moves
import WordStm.Proofs.Tracking
import WordStm.Proofs.Opacity
import WordStm.Proofs.Numbers
import WordStm.Proofs.Serializability
import WordStm.Proofs.Retirement
import WordStm.Proofs.Freeing
import WordStm.Proofs.Decision
import WordStm.Proofs.Transactions
import WordStm.Proofs.Words
import WordStm.Proofs.Versions
import WordStm.Proofs.Standing
import WordStm.Proofs.Published
import WordStm.Proofs.Conflicts
import WordStm.Proofs.Survival
import WordStm.Proofs.Traces
import WordStm.Proofs.Lookup
import WordStm.Proofs.Keeping
import WordStm.Proofs.Answers
import WordStm.Proofs.Twins
import WordStm.Proofs.Mirroring
import WordStm.Proofs.Lockstep
import WordStm.Proofs.Tuning
import WordStm.Proofs.Provision
import WordStm.Proofs.Erasure
import WordStm.Proofs.Accounting
import WordStm.Proofs.Atomicity
import WordStm.Proofs.Counting
import WordStm.Proofs.Running
import WordStm.Proofs.Retrying
import WordStm.Proofs.LockOrders
import WordStm.Proofs.Lives
import WordStm.Proofs.Extents
import WordStm.Proofs.Dooms
import WordStm.Proofs.Commuting
import WordStm.Proofs.Sizing
import WordStm.Proofs.Mapping
import WordStm.Proofs.Allotment
import WordStm.Proofs.Rollbacks
import WordStm.Proofs.Handles
import WordStm.Proofs.Diagram
import WordStm.Proofs.WriteOnce
import WordStm.Proofs.Coherence
import WordStm.Proofs.Membership
import WordStm.Proofs.Isolation
import WordStm.Proofs.Requests
