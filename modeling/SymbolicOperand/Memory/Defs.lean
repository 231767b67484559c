import SymbolicOperand.Memory.Error

namespace SymbolicOperand

-- A contiguous run of cells, of which some hold no value yet.
structure Segment where
  cells : Array (Option Value) := #[]

namespace Segment

def length (segment : Segment) : Nat :=
  segment.cells.size

def isEmpty (segment : Segment) : Bool :=
  segment.cells.isEmpty

-- Any offset can be asked for. Past the last cell there is no value either.
def get? (segment : Segment) (offset : UInt64) : Option Value :=
  segment.cells[offset.toNat]?.join

-- Cells past the new length are dropped, cells that are short of it are added unset.
def resize (segment : Segment) (length : Nat) : Segment :=
  { cells := (segment.cells.shrink length).rightpad length none }

-- Grow a segment that ends before the offset until the offset is its last cell.
def cover (segment : Segment) (offset : UInt64) : Segment :=
  if segment.length ≤ offset.toNat then segment.resize (offset.toNat + 1) else segment

def set (segment : Segment) (offset : UInt64) (value : Value) : Segment :=
  { cells := segment.cells.setIfInBounds offset.toNat (some value) }

-- The segment is grown before the cell is looked at, so what a refused write leaves is
-- the grown segment too. Words are taken to be indices of the host and its room to be
-- unlimited: no offset is unaddressable, and growing never fails. A host runs out of
-- room long before the greatest offset, and has no length to give to a segment there.
def write (segment : Segment) (cell : Address) (value : Value) :
    Segment × Except MemoryError Unit :=
  let grown := segment.cover cell.offset
  match grown.get? cell.offset with
  | some old =>
      if old ≠ value then (grown, .error (.conflict cell old value))
      else (grown.set cell.offset value, .ok ())
  | none => (grown.set cell.offset value, .ok ())

end Segment

-- Segments are numbered in the order of their allocation and are never freed.
structure Memory where
  segments : Array Segment

namespace Memory

-- The program and the execution segment are there from the start.
def initial : Memory :=
  { segments := #[{}, {}] }

def segmentCount (memory : Memory) : Nat :=
  memory.segments.size

def segment? (memory : Memory) (index : UInt64) : Option Segment :=
  memory.segments[index.toNat]?

def segmentLength? (memory : Memory) (index : UInt64) : Option Nat :=
  (memory.segment? index).map Segment.length

def allocate (memory : Memory) : Memory × Nat :=
  ({ segments := memory.segments.push {} }, memory.segmentCount)

def read (memory : Memory) (cell : Address) : Except MemoryError Value :=
  match memory.segment? cell.segment with
  | none => .error (.unknownSegment cell.segment)
  | some segment =>
      match segment.get? cell.offset with
      | some value => .ok value
      | none => .error (.uninitialized cell)

-- Cells are written once. Writing the value that a cell holds already is accepted, and
-- writing another one is refused.
def write (memory : Memory) (cell : Address) (value : Value) : Memory × Except MemoryError Unit :=
  match memory.segment? cell.segment with
  | none => (memory, .error (.unknownSegment cell.segment))
  | some segment =>
      let (written, result) := segment.write cell value
      ({ segments := memory.segments.setIfInBounds cell.segment.toNat written }, result)

end Memory

end SymbolicOperand
