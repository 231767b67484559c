import SymbolicOperand.Reference.Defs

namespace SymbolicOperand

-- A cell lies in the execution segment, at the sum over the integers.
theorem Cell.locate_eq_ok_iff {cell : Cell} {registers : Registers} {address : Address} :
    cell.locate registers = .ok address ↔
      address.segment = executionSegment ∧
        (address.offset.toNat : Int) = (registers.get cell.base).toNat + cell.offset.toInt := by
  obtain ⟨segment, offset⟩ := address
  rw [← Word.shift?_eq_some_iff, locate]
  cases Word.shift? (registers.get cell.base) cell.offset with
  | none => simp
  | some found => simp [eq_comm]

namespace Reference

-- The leaves that a register locates, from left to right.
def cells : Reference → List Cell
  | cell c => [c]
  | deref inner => inner.cells
  | doubleDeref inner _ => inner.cells
  | immediate _ => []
  | binary _ lhs rhs => lhs.cells ++ rhs.cells

-- The same shape over other cells.
def mapCells (change : Cell → Cell) : Reference → Reference
  | cell c => cell (change c)
  | deref inner => deref (inner.mapCells change)
  | doubleDeref inner offset => doubleDeref (inner.mapCells change) offset
  | immediate number => immediate number
  | binary operator lhs rhs => binary operator (lhs.mapCells change) (rhs.mapCells change)

theorem mapCells_id (reference : Reference) : reference.mapCells id = reference := by
  induction reference with
  | cell c => rfl
  | deref inner ih => exact congrArg deref ih
  | doubleDeref inner offset ih => exact congrArg (doubleDeref · offset) ih
  | immediate number => rfl
  | binary operator lhs rhs ihl ihr => rw [mapCells, ihl, ihr]

theorem mapCells_mapCells (reference : Reference) (first second : Cell → Cell) :
    (reference.mapCells first).mapCells second = reference.mapCells (second ∘ first) := by
  induction reference with
  | cell c => rfl
  | deref inner ih => exact congrArg deref ih
  | doubleDeref inner offset ih => exact congrArg (doubleDeref · offset) ih
  | immediate number => rfl
  | binary operator lhs rhs ihl ihr => rw [mapCells, mapCells, mapCells, ihl, ihr]

theorem mapCells_eq_self_iff {change : Cell → Cell} {reference : Reference} :
    reference.mapCells change = reference ↔ ∀ c ∈ reference.cells, change c = c := by
  induction reference with
  | cell c => simp [mapCells, cells]
  | deref inner ih => simp only [mapCells, cells, deref.injEq, ih]
  | doubleDeref inner offset ih => simp only [mapCells, cells, doubleDeref.injEq, and_true, ih]
  | immediate number => simp [mapCells, cells]
  | binary operator lhs rhs ihl ihr =>
      simp only [mapCells, cells, binary.injEq, true_and, List.forall_mem_append, ihl, ihr]

theorem cells_mapCells (reference : Reference) (change : Cell → Cell) :
    (reference.mapCells change).cells = reference.cells.map change := by
  induction reference with
  | cell c => rfl
  | deref inner ih => exact ih
  | doubleDeref inner offset ih => exact ih
  | immediate number => rfl
  | binary operator lhs rhs ihl ihr => rw [mapCells, cells, cells, List.map_append, ihl, ihr]

end Reference

end SymbolicOperand
