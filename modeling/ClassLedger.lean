import ClassLedger.Main
import ClassLedger.Node
import ClassLedger.Proofs.Record.Boundaries
import ClassLedger.Proofs.Record.Receiving
import ClassLedger.Proofs.Record.RoundTrip
import ClassLedger.Proofs.Record.Sending
import ClassLedger.Proofs.Shape.Changes
import ClassLedger.Proofs.Shape.ReadBack
import ClassLedger.Proofs.Shape.Reordering
import ClassLedger.Proofs.Snapshot.Acceptance
import ClassLedger.Proofs.Snapshot.Changes
import ClassLedger.Proofs.Snapshot.Damage
import ClassLedger.Proofs.Snapshot.History
import ClassLedger.Proofs.Snapshot.RoundTrip
import ClassLedger.Proofs.View.Copies
import ClassLedger.Proofs.Wire.Agreement
import ClassLedger.Record.Printer
import ClassLedger.Version
import ClassLedger.Wire.Sink
import ClassLedger.Proofs.Payload.Continuation
import ClassLedger.Proofs.Shape.Refusals
import ClassLedger.Proofs.Shape.Precedence
import ClassLedger.Proofs.Shape.Normalisation
import ClassLedger.Proofs.Shape.Indifference
import ClassLedger.Proofs.Payload.Pieces
import ClassLedger.Proofs.Shape.Storage
import ClassLedger.Proofs.Record.Revision
import ClassLedger.Proofs.Snapshot.Faults
import ClassLedger.Proofs.Snapshot.Inflation
import ClassLedger.Proofs.Payload.RoundTrip
import ClassLedger.Proofs.Shape.Interning
import ClassLedger.Proofs.Wire.Codec
import ClassLedger.Proofs.Wire.Consumption
import ClassLedger.Proofs.Record.Size
