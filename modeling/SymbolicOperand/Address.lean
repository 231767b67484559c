import SymbolicOperand.Word

namespace SymbolicOperand

-- A cell of the memory: a segment and an offset inside it. The order compares
-- segments first and offsets within one segment.
structure Address where
  segment : UInt64
  offset : UInt64
  deriving DecidableEq, Repr, Ord

-- The segment that holds the bytecode.
def programSegment : UInt64 := 0

-- The segment that `ap` and `fp` point into.
def executionSegment : UInt64 := 1

namespace Address

def shift? (address : Address) (displacement : Int16) : Option Address :=
  (Word.shift? address.offset displacement).map fun offset => { address with offset }

def text (address : Address) : String :=
  toString address.segment ++ ":" ++ toString address.offset

instance : ToString Address := ⟨text⟩

end Address

end SymbolicOperand
