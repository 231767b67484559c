import SymbolicOperand.Memory.Error

namespace SymbolicOperand

-- Move a pointer by a field element. An element that fits in a word moves it
-- forward, one whose negation does moves it back. No element does both but zero.
-- The distance of any other element exceeds every offset, in either direction.
def Address.displace (base : Address) (delta : Felt) : Except MemoryError Address :=
  let offset? :=
    match delta.toWord?, (-delta).toWord? with
    | some distance, _ => Word.forward? base.offset distance
    | none, some distance => Word.backward? base.offset distance
    | none, none => none
  match offset? with
  | some offset => .ok { base with offset }
  | none => .error (.pointerOverflow base delta)

namespace Value

-- A sum is a pointer when one side is. Two pointers have no sum.
def add : Value → Value → Except MemoryError Value
  | felt a, felt b => .ok (felt (a + b))
  | address base, felt delta => (base.displace delta).map address
  | felt delta, address base => (base.displace delta).map address
  | address a, address b => .error (.illTyped "+" (address a) (address b))

def mul : Value → Value → Except MemoryError Value
  | felt a, felt b => .ok (felt (a * b))
  | lhs, rhs => .error (.illTyped "*" lhs rhs)

end Value

end SymbolicOperand
