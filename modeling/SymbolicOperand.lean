import SymbolicOperand.Version
import SymbolicOperand.Reference.Resolve
import SymbolicOperand.ApTracking.Json
import SymbolicOperand.Proofs.Reference.Result
import SymbolicOperand.Proofs.Memory.History
import SymbolicOperand.Proofs.Machine.Growth
import SymbolicOperand.Proofs.Reference.Persistence
import SymbolicOperand.Proofs.Reference.Retry
import SymbolicOperand.Proofs.Reference.Cells
import SymbolicOperand.Proofs.Reference.Simulation
import SymbolicOperand.Proofs.ApTracking.Drift
import SymbolicOperand.Proofs.ApTracking.Rebase
import SymbolicOperand.Proofs.ApTracking.Composition
import SymbolicOperand.Proofs.ApTracking.Advance
import SymbolicOperand.Proofs.Reference.PointerSum
import SymbolicOperand.Proofs.Reference.Success
import SymbolicOperand.Proofs.Reference.Sum
import SymbolicOperand.Proofs.Memory.Relocation
import SymbolicOperand.Proofs.Reference.Relocation
import SymbolicOperand.Proofs.Reference.Itinerary
import SymbolicOperand.Proofs.Reference.Origin
import SymbolicOperand.Proofs.Reference.Shape
import SymbolicOperand.Proofs.Memory.Reorder
import SymbolicOperand.Proofs.Value.SignedReading
import SymbolicOperand.Proofs.Reference.Store
import SymbolicOperand.Proofs.ApTracking.Format
import SymbolicOperand.Proofs.ApTracking.Record
import SymbolicOperand.Proofs.Reference.Refusal
import SymbolicOperand.Proofs.Reference.Collapse
import SymbolicOperand.Proofs.Reference.Text
import SymbolicOperand.Proofs.Value.Difference
import SymbolicOperand.Proofs.Reference.CellShift
import SymbolicOperand.Proofs.ResolveError.Contexts
