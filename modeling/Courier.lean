import Courier.Base64
import Courier.Bus.Basic
import Courier.Bus.Composite
import Courier.Bus.Lifecycle
import Courier.Bus.Publish
import Courier.Bus.Request
import Courier.Bus.Response
import Courier.Bytes
import Courier.Cancellation
import Courier.Config.Record
import Courier.Config.Route
import Courier.Config.Sources
import Courier.Config.Tree
import Courier.Decimal.Double
import Courier.Decimal.Literal
import Courier.Decimal.Shortest
import Courier.Dictionary
import Courier.Failure
import Courier.Json.Basic
import Courier.Json.Printer
import Courier.Json.Reader
import Courier.Json.Record
import Courier.Message.Basic
import Courier.Message.Contract
import Courier.Message.Envelope
import Courier.Message.Serializer
import Courier.Outbox.Call
import Courier.Outbox.Capture
import Courier.Outbox.Forwarder
import Courier.Outbox.Repository
import Courier.Outbox.Row
import Courier.Outbox.RowId
import Courier.Outbox.SendingTask
import Courier.Pending.Slot
import Courier.Pending.Store
import Courier.Pending.Sweep
import Courier.Pending.Sweeper
import Courier.Processor.Bounded
import Courier.Processor.Result
import Courier.Proofs.Decimal.Digits
import Courier.Proofs.Lifecycle.Ensemble
import Courier.Proofs.Lifecycle.Notices
import Courier.Proofs.Lifecycle.Rounds
import Courier.Proofs.Messages.Base64
import Courier.Proofs.Messages.Nesting
import Courier.Proofs.Messages.Numbers
import Courier.Proofs.Messages.Quoting
import Courier.Proofs.Messages.Records
import Courier.Proofs.Messages.Sealing
import Courier.Proofs.Outbox.Accounting
import Courier.Proofs.Outbox.Backoff
import Courier.Proofs.Outbox.Custody
import Courier.Proofs.Outbox.Draining
import Courier.Proofs.Outbox.Endurance
import Courier.Proofs.Outbox.Exclusive
import Courier.Proofs.Outbox.Fleet
import Courier.Proofs.Outbox.Forwarding
import Courier.Proofs.Outbox.Holding
import Courier.Proofs.Outbox.Leases
import Courier.Proofs.Outbox.Locking
import Courier.Proofs.Outbox.OnePass
import Courier.Proofs.Outbox.Revival
import Courier.Proofs.Outbox.Routing
import Courier.Proofs.Outbox.Rows
import Courier.Proofs.Outbox.Seniority
import Courier.Proofs.Outbox.Settling
import Courier.Proofs.Outbox.Solitary
import Courier.Proofs.Outbox.Stopping
import Courier.Proofs.Outbox.Storing
import Courier.Proofs.Outbox.Tenure
import Courier.Proofs.Outbox.Upkeep
import Courier.Proofs.Pending.Entries
import Courier.Proofs.Pending.Reactions
import Courier.Proofs.Pending.Reentry
import Courier.Proofs.Pending.Undisturbed
import Courier.Proofs.Processor.Accounting
import Courier.Proofs.Processor.Conservation
import Courier.Proofs.Processor.Draining
import Courier.Proofs.Processor.Handout
import Courier.Proofs.Processor.Intake
import Courier.Proofs.Publishing.Chain
import Courier.Proofs.Publishing.Effects
import Courier.Proofs.Publishing.Marking
import Courier.Proofs.Publishing.Outlet
import Courier.Proofs.Publishing.Transparency
import Courier.Proofs.Publishing.Unreadable
import Courier.Proofs.Requests.Agreement
import Courier.Proofs.Requests.Carriage
import Courier.Proofs.Requests.Conversation
import Courier.Proofs.Requests.Correlation
import Courier.Proofs.Requests.Deadline
import Courier.Proofs.Requests.Dropping
import Courier.Proofs.Requests.Exchange
import Courier.Proofs.Requests.Lifetime
import Courier.Proofs.Requests.Residence
import Courier.Proofs.Requests.Store
import Courier.Proofs.Run
import Courier.Proofs.Settings
import Courier.Proofs.Time.Calendar
import Courier.Proofs.Time.Moving
import Courier.Proofs.Time.Order
import Courier.Proofs.Time.Text
import Courier.Settings
import Courier.Simulation.Activities
import Courier.Simulation.Effects
import Courier.Simulation.Event
import Courier.Simulation.Legend
import Courier.Simulation.Named
import Courier.Simulation.Schedule
import Courier.Simulation.Steps.Buses
import Courier.Simulation.Steps.Delivery
import Courier.Simulation.Steps.Pending
import Courier.Simulation.Steps.Processing
import Courier.Simulation.Steps.Time
import Courier.Simulation.World
import Courier.Text.Blank
import Courier.Text.Described
import Courier.Text.Extending
import Courier.Text.Unprintable
import Courier.Time.Calendar
import Courier.Time.Instant
import Courier.Time.Span
import Courier.Time.Text
import Courier.Transport.Memory
import Courier.Yaml.Reading
import Courier.Yaml.Scalar
import Courier.Yaml.Tag
import Courier.Yaml.Token
import Courier.Yaml.Value
