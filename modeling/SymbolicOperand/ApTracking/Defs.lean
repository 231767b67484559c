import SymbolicOperand.Traced

namespace SymbolicOperand

-- What is known of `ap` at a program point: within one group, `offset` counts how
-- far `ap` has advanced since the group began. Offsets of different groups are
-- not comparable.
structure ApTracking where
  group : UInt64 := 0
  offset : UInt64 := 0
  deriving DecidableEq, Repr

namespace ApTracking

def sameGroup (a b : ApTracking) : Bool :=
  a.group == b.group

-- The distance from `current` to `recorded` at the width of a cell offset. The
-- higher bits cancel out of every offset that still fits.
def drift (recorded current : ApTracking) : Int16 :=
  (recorded.offset - current.offset).toInt64.toInt16

end ApTracking

-- A cell counted from `ap` is moved back by the drift. The frame does not move
-- within a call, so a cell counted from `fp` stays.
def Cell.rebase (recorded current : ApTracking) (cell : Cell) : Traced Cell :=
  match cell.base with
  | .fp => pure cell
  | .ap =>
      if recorded.sameGroup current then do
        let after := { cell with offset := cell.offset - recorded.drift current }
        if after ≠ cell then
          Traced.emit (.rebased cell after)
        pure after
      else do
        Traced.emit (.groupMismatch cell recorded.group current.group)
        pure cell

-- Rebuild a reference for another program point. Only cells are touched: the
-- offset of a double indirection counts from a pointer and not from `ap`.
def Reference.rebase (recorded current : ApTracking) : Reference → Traced Reference
  | cell c => return cell (← c.rebase recorded current)
  | deref inner => return deref (← inner.rebase recorded current)
  | doubleDeref inner offset => return doubleDeref (← inner.rebase recorded current) offset
  | immediate number => return immediate number
  | binary operator lhs rhs => do
      let left ← lhs.rebase recorded current
      let right ← rhs.rebase recorded current
      return binary operator left right

end SymbolicOperand
