import SymbolicOperand.Reference.Cell
import SymbolicOperand.Reference.Operator

namespace SymbolicOperand

-- A symbolic operand. A double indirection reads the pointer at `inner` and goes
-- `offset` cells on from its target. The read of that pointer is a single
-- indirection that the constructor leaves implicit.
inductive Reference where
  | cell (cell : Cell)
  | deref (inner : Reference)
  | doubleDeref (inner : Reference) (offset : Int16)
  | immediate (number : Felt)
  | binary (operator : Operator) (lhs rhs : Reference)
  deriving DecidableEq, Repr

namespace Reference

def text : Reference → String
  | cell c => c.text
  | deref inner => s!"Deref({inner.text})"
  | doubleDeref inner offset => s!"DoubleDeref(Deref({inner.text}), {offset})"
  | immediate number => s!"Immediate({number.text})"
  | binary operator lhs rhs => s!"BinaryOp({lhs.text} {operator.symbol} {rhs.text})"

instance : ToString Reference := ⟨text⟩

end Reference

end SymbolicOperand
