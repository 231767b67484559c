import SymbolicOperand.ResolveError
import SymbolicOperand.Value.Arithmetic

namespace SymbolicOperand

-- Subtraction has a tag and a symbol and no rule.
inductive Operator where
  | add
  | mul
  | sub
  deriving DecidableEq, Repr

namespace Operator

def symbol : Operator → String
  | add => "+"
  | mul => "*"
  | sub => "-"

def ofTag (tag : UInt8) : Except ResolveError Operator :=
  match tag with
  | 0 => .ok add
  | 1 => .ok mul
  | 2 => .ok sub
  | _ => .error (.unknownOperator (toString tag))

def apply (operator : Operator) (lhs rhs : Value) : Except ResolveError Value :=
  match operator with
  | add => (lhs.add rhs).mapError .memory
  | mul => (lhs.mul rhs).mapError .memory
  | sub => .error (.unknownOperator operator.symbol)

end Operator

end SymbolicOperand
