import SymbolicOperand.Memory.Defs

namespace SymbolicOperand

-- The allocation and the frame pointer are offsets into the execution segment.
structure Registers where
  ap : UInt64
  fp : UInt64
  pc : Address
  deriving DecidableEq, Repr

-- At the start of a run both pointers stand at the initial frame.
def Registers.start (frame : UInt64) : Registers :=
  { ap := frame, fp := frame, pc := { segment := programSegment, offset := 0 } }

structure Machine where
  registers : Registers
  memory : Memory

namespace Machine

-- A machine whose memory is still unwritten.
def start (registers : Registers) : Machine :=
  { registers, memory := Memory.initial }

def write (machine : Machine) (cell : Address) (value : Value) :
    Machine × Except MemoryError Unit :=
  let (memory, result) := machine.memory.write cell value
  ({ machine with memory }, result)

def writeExecution (machine : Machine) (offset : UInt64) (value : Value) :
    Machine × Except MemoryError Unit :=
  machine.write { segment := executionSegment, offset } value

end Machine

end SymbolicOperand
