import Logbook.Position
import Logbook.Counter
import Logbook.Time
import Logbook.Span
import Logbook.Record
import Logbook.Store
import Logbook.Store.Gap
import Logbook.Text.Bytes
import Logbook.Text.Quoted
import Logbook.Text.Hex
import Logbook.Identity
import Logbook.Refusal
import Logbook.Policy
import Logbook.Progress
import Logbook.Session.Basic
import Logbook.Session.Request
import Logbook.Session.Receive
import Logbook.Session.Notes
import Logbook.Journal
import Logbook.Journal.Notes
import Logbook.Message
import Logbook.Note
import Logbook.Reconciler.Basic
import Logbook.Reconciler.Handle
import Logbook.Wire.Value
import Logbook.Wire.Atoms
import Logbook.Wire.Records
import Logbook.Wire.Messages
import Logbook.Delivery.Queue
import Logbook.Delivery.Outlet
import Logbook.Fleet
import Logbook.Rehearsal.Device
import Logbook.Rehearsal.Stream
import Logbook.Rehearsal.Script
import Logbook.Proofs.Store.Missing
import Logbook.Proofs.Store.Records
import Logbook.Proofs.Store.FirstGap
import Logbook.Proofs.Store.Bounds
import Logbook.Proofs.Store.Holes
import Logbook.Proofs.Store.Counting
import Logbook.Proofs.Wire.RoundTrip
import Logbook.Proofs.Wire.Spellings
import Logbook.Proofs.Wire.Positions
import Logbook.Proofs.Wire.Spans
import Logbook.Proofs.Identity
import Logbook.Proofs.Session
import Logbook.Proofs.Session.Accounts
import Logbook.Proofs.Session.Merge
import Logbook.Proofs.Session.Advance
import Logbook.Proofs.Session.Operations
import Logbook.Proofs.Session.Drops
import Logbook.Proofs.Session.Backfills
import Logbook.Proofs.Session.Percent
import Logbook.Proofs.Session.Losses
import Logbook.Proofs.Journal
import Logbook.Proofs.Journal.Needed
import Logbook.Proofs.Journal.Placement
import Logbook.Proofs.Reconciler.Operations
import Logbook.Proofs.Reconciler.Step
import Logbook.Proofs.Reconciler.Run
import Logbook.Proofs.Reconciler.Told
import Logbook.Proofs.Reconciler.Reset
import Logbook.Proofs.Reconciler.Outstanding
import Logbook.Proofs.Reconciler.Cancel
import Logbook.Proofs.Reconciler.Patience
import Logbook.Proofs.Reconciler.Accounts
import Logbook.Proofs.Reconciler.Expectation
import Logbook.Proofs.Reconciler.Retreat
import Logbook.Proofs.Reconciler.Retention
import Logbook.Proofs.Reconciler.Provenance
import Logbook.Proofs.Reconciler.Standing
import Logbook.Proofs.Reconciler.Closed
import Logbook.Proofs.Reconciler.Repair
import Logbook.Proofs.Reconciler.Published
import Logbook.Proofs.Reconciler.Abandoned
import Logbook.Proofs.Reconciler.Requests
import Logbook.Proofs.Reconciler.WellFormed
import Logbook.Proofs.Reconciler.Floor
import Logbook.Proofs.Reconciler.Transfers
import Logbook.Proofs.Reconciler.Rollover
import Logbook.Proofs.Reconciler.Stalled
import Logbook.Proofs.Reconciler.Convergence
import Logbook.Proofs.Reconciler.Arrivals
import Logbook.Proofs.Guarded.Session
import Logbook.Proofs.Guarded.Reconciler
import Logbook.Proofs.Fleet.Orders
import Logbook.Proofs.Fleet.Isolation
import Logbook.Proofs.Fleet.Deliveries
