import ZigbeeHost.Command.Calls
import ZigbeeHost.Payload.Document
import ZigbeeHost.Proofs.Event.Delivery
import ZigbeeHost.Proofs.Event.Prototypes
import ZigbeeHost.Proofs.Frame.Accounting
import ZigbeeHost.Proofs.Frame.Chunking
import ZigbeeHost.Proofs.Frame.Corruption
import ZigbeeHost.Proofs.Frame.Draining
import ZigbeeHost.Proofs.Frame.Residues
import ZigbeeHost.Proofs.Frame.Resynchronisation
import ZigbeeHost.Proofs.Layout.Containers
import ZigbeeHost.Proofs.Layout.Numbers
import ZigbeeHost.Proofs.Layout.Runs
import ZigbeeHost.Proofs.Layout.Tags
import ZigbeeHost.Proofs.Layout.WellFormed
import ZigbeeHost.Proofs.Payload.AddressForms
import ZigbeeHost.Proofs.Payload.Elements
import ZigbeeHost.Proofs.Payload.Failures
import ZigbeeHost.Proofs.Payload.HeldIntegers
import ZigbeeHost.Proofs.Payload.Independence
import ZigbeeHost.Proofs.Payload.Members
import ZigbeeHost.Proofs.Payload.OpenEnds
import ZigbeeHost.Proofs.Payload.Pieces
import ZigbeeHost.Proofs.Payload.Prefixes
import ZigbeeHost.Proofs.Payload.Presence
import ZigbeeHost.Proofs.Payload.Reencoding
import ZigbeeHost.Proofs.Payload.Representable
import ZigbeeHost.Proofs.Payload.RoundTrip
import ZigbeeHost.Proofs.Payload.Segments
import ZigbeeHost.Proofs.Payload.Visits
import ZigbeeHost.Proofs.Session.Closing
import ZigbeeHost.Proofs.Session.Departure
import ZigbeeHost.Proofs.Session.Forwarding
import ZigbeeHost.Proofs.Session.Histories
import ZigbeeHost.Proofs.Session.Occurrences
import ZigbeeHost.Proofs.Session.Races
import ZigbeeHost.Proofs.Session.Registration
import ZigbeeHost.Proofs.Session.Rejection
import ZigbeeHost.Proofs.Session.Routing
import ZigbeeHost.Proofs.Session.Transmission
import ZigbeeHost.Proofs.Transaction.Effects
import ZigbeeHost.Proofs.Transaction.ExactlyOnce
import ZigbeeHost.Proofs.Transaction.Firing
import ZigbeeHost.Proofs.Transaction.Handles
import ZigbeeHost.Proofs.Transaction.LateTimers
import ZigbeeHost.Proofs.Transaction.Race
import ZigbeeHost.Proofs.Transaction.Slots
import ZigbeeHost.Proofs.Transaction.Timers
import ZigbeeHost.Proofs.Transaction.Waning
import ZigbeeHost.Session.Run
import ZigbeeHost.Session.Serial
