import SymbolicOperand.Value.Defs

namespace SymbolicOperand

-- Why an access to memory, or the arithmetic on what it holds, was refused.
inductive MemoryError where
  | uninitialized (cell : Address)
  | unknownSegment (segment : UInt64)
  -- the offset exceeds what the host can index
  | unaddressable (cell : Address)
  | conflict (cell : Address) (old new : Value)
  -- the operator has no rule for these two tags
  | illTyped (operator : String) (lhs rhs : Value)
  -- the pointer would leave the offsets of its segment
  | pointerOverflow (base : Address) (delta : Felt)
  deriving DecidableEq, Repr

namespace MemoryError

def message : MemoryError → String
  | uninitialized cell => s!"Uninitialized memory cell at {cell}"
  | unknownSegment segment => s!"Unknown segment {segment}"
  | unaddressable cell => s!"Offset of {cell} does not fit in host memory"
  | conflict cell old new => s!"Rewriting cell {cell}: old value {old}, new value {new}"
  | illTyped operator lhs rhs =>
      s!"Invalid operation: {operator} on {lhs} ({lhs.kind}) and {rhs} ({rhs.kind})"
  | pointerOverflow base delta => s!"Address overflow: {base} + {delta.text}"

end MemoryError

end SymbolicOperand
