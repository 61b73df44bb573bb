import DeskLink.Config.Json
import DeskLink.Input.Waiting
import DeskLink.Rehearsal.Comeback
import DeskLink.Rehearsal.Consoles
import DeskLink.Rehearsal.Desk
import DeskLink.Proofs.Handshake.Client
import DeskLink.Proofs.Handshake.Server
import DeskLink.Proofs.Handshake.Agreement
import DeskLink.Proofs.Handshake.Outcomes
import DeskLink.Proofs.Checked
import DeskLink.Proofs.Text
import DeskLink.Proofs.Bytes
import DeskLink.Proofs.Envelope.RoundTrip
import DeskLink.Proofs.Envelope.Canonical
import DeskLink.Proofs.Transport.Framing
import DeskLink.Proofs.Transport.Reassembly
import DeskLink.Proofs.Input.Accounting
import DeskLink.Proofs.Input.Moves
import DeskLink.Proofs.Input.Bells
import DeskLink.Proofs.Input.Waking
import DeskLink.Proofs.Input.Books
import DeskLink.Proofs.Link
import DeskLink.Proofs.Link.Replay
import DeskLink.Proofs.Session.Moves
import DeskLink.Proofs.Session.Directions
import DeskLink.Proofs.Session.InFlight
import DeskLink.Proofs.Session.Pair
import DeskLink.Proofs.Session.Delivery
import DeskLink.Proofs.Session.Stream
import DeskLink.Proofs.Handshake.Moves
import DeskLink.Proofs.Handshake.Wire
import DeskLink.Proofs.Handshake.Holding
import DeskLink.Proofs.Session.Leaving
import DeskLink.Proofs.Session.Deadline
import DeskLink.Proofs.Session.Candor
import DeskLink.Proofs.Handshake.Course
import DeskLink.Proofs.Session.Overture
import DeskLink.Proofs.Session.Concord
import DeskLink.Proofs.Server.Places
import DeskLink.Proofs.Server.Moves
import DeskLink.Proofs.Server.Shutdown
import DeskLink.Proofs.Server.Producers
import DeskLink.Proofs.Server.Tally
import DeskLink.Proofs.Server.Tenancy
import DeskLink.Proofs.Client.Moves
import DeskLink.Proofs.Client.Ownership
import DeskLink.Proofs.Session.Farewell
import DeskLink.Proofs.Handshake.Contract
import DeskLink.Proofs.Client.Runs
import DeskLink.Proofs.Client.Keeping
import DeskLink.Proofs.Client.Cancelling
import DeskLink.Proofs.Handshake.Forward
import DeskLink.Proofs.Envelope.Truncation
import DeskLink.Proofs.Link.Numbering
import DeskLink.Proofs.Transport.Writing
import DeskLink.Proofs.Session.Hearing
import DeskLink.Proofs.Session.Answering
import DeskLink.Proofs.Heartbeat.Moves
import DeskLink.Proofs.Heartbeat.Diary
import DeskLink.Proofs.Heartbeat.Staleness
import DeskLink.Proofs.Heartbeat.Measuring
import DeskLink.Proofs.Client.Schedule
import DeskLink.Proofs.Client.Doubling
import DeskLink.Proofs.Envelope.Size
import DeskLink.Proofs.Handshake.Fitting
import DeskLink.Proofs.Server.Chronicle
import DeskLink.Proofs.Server.RoundTrips
import DeskLink.Proofs.Server.Pumping
import DeskLink.Proofs.Server.Dispatch
import DeskLink.Proofs.Client.Story
import DeskLink.Proofs.Client.Status
import DeskLink.Proofs.Input.Shape
import DeskLink.Proofs.Transport.Barrier
import DeskLink.Proofs.Link.Custody
import DeskLink.Proofs.Session.Progress
import DeskLink.Proofs.Server.Reports
import DeskLink.Proofs.Server.Progress
