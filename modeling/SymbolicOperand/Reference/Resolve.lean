import SymbolicOperand.Traced

namespace SymbolicOperand

def Value.target (offset : Int16) : Value → Except ResolveError Address
  | address base =>
      match base.shift? offset with
      | some cell => .ok cell
      | none => .error (.offsetOverflow base.offset offset)
  | felt number => .error (.typeMismatch "address" (felt number).kind)

namespace Machine

-- Read a cell on behalf of a reference. A refusal is reported before it is returned.
def fetch (machine : Machine) (cell : Address) : Attempt Value :=
  match machine.memory.read cell with
  | .ok value => pure value
  | .error cause => do
      Traced.emit (.readFailed cell cause)
      throw (.memory cause)

def load (machine : Machine) (located : Attempt Address) : Attempt Value := do
  let cell ← located.during "get cell address"
  machine.fetch cell

-- The target of the pointer in a cell that has yet to be located, moved by an offset.
def follow (machine : Machine) (located : Attempt Address) (offset : Int16) : Attempt Address := do
  let pointer ← (machine.load located).during "get lhs address"
  Attempt.ofExcept (pointer.target offset)

end Machine

namespace Reference

-- The location that a reference denotes. An indirection is located where its
-- inner reference is: only its value takes a read.
def locate (machine : Machine) (reference : Reference) : Attempt Address := do
  Traced.emit (.locating reference)
  match reference with
  | cell c => Attempt.ofExcept (c.locate machine.registers)
  | deref inner => inner.locate machine
  | doubleDeref inner offset => machine.follow (inner.locate machine) offset
  | immediate _ | binary .. => throw (.notAddressable reference.text)

-- The value that a reference denotes. Operands are resolved from left to right,
-- and the first failure ends the attempt.
def resolve (machine : Machine) (reference : Reference) : Attempt Value := do
  Traced.emit (.resolving reference)
  match reference with
  | cell _ => throw (.unresolvable reference.text)
  | deref inner => machine.load (inner.locate machine)
  | doubleDeref inner offset =>
      let target ← machine.follow (inner.locate machine) offset
      (machine.fetch target).during s!"read result at {target}"
  | immediate number => pure (.felt number)
  | binary operator lhs rhs =>
      let left ← (lhs.resolve machine).during s!"resolve lhs operand {lhs}"
      let right ← (rhs.resolve machine).during s!"resolve rhs operand {rhs}"
      Attempt.ofExcept (operator.apply left right)

end Reference

end SymbolicOperand
