import SymbolicOperand.Machine
import SymbolicOperand.ResolveError

namespace SymbolicOperand

inductive Register where
  | ap
  | fp
  deriving DecidableEq, Repr

def Registers.get (registers : Registers) : Register → UInt64
  | .ap => registers.ap
  | .fp => registers.fp

-- A cell of the execution segment at a fixed distance from a register.
structure Cell where
  base : Register
  offset : Int16
  deriving DecidableEq, Repr

namespace Cell

def text (cell : Cell) : String :=
  match cell.base with
  | .ap => s!"ApCellRef({cell.offset})"
  | .fp => s!"FpCellRef({cell.offset})"

instance : ToString Cell := ⟨text⟩

-- Only the registers matter: locating a cell reads no memory.
def locate (cell : Cell) (registers : Registers) : Except ResolveError Address :=
  match Word.shift? (registers.get cell.base) cell.offset with
  | some offset => .ok { segment := executionSegment, offset }
  | none => .error (.offsetOverflow (registers.get cell.base) cell.offset)

-- The cell some places further, as long as the distance still fits.
def shift? (cell : Cell) (displacement : Int16) : Option Cell :=
  let sum := cell.offset.toInt + displacement.toInt
  if Int16.minValue.toInt ≤ sum ∧ sum ≤ Int16.maxValue.toInt then
    some { cell with offset := Int16.ofInt sum }
  else
    none

end Cell

end SymbolicOperand
