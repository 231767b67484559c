import SymbolicOperand.ApTracking.Defs
import SymbolicOperand.Proofs.Reference.Cells

namespace SymbolicOperand

-- How far `ap` is from `current` at the point of `recorded`, over the integers.
def ApTracking.distance (recorded current : ApTracking) : Int :=
  recorded.offset.toNat - current.offset.toNat

theorem ApTracking.toInt_drift (recorded current : ApTracking) :
    (recorded.drift current).toInt = (recorded.distance current).bmod Int16.size := by
  have hword : (recorded.offset - current.offset).toInt64.toInt =
      (recorded.distance current).bmod (2 ^ 64) := by
    change (recorded.offset.toBitVec - current.offset.toBitVec).toInt = _
    rw [BitVec.toInt_sub, BitVec.toInt_eq_toNat_bmod, BitVec.toInt_eq_toNat_bmod,
      Int.bmod_sub_bmod, Int.sub_bmod_bmod]
    rfl
  rw [drift, Int64.toInt_toInt16, hword]
  exact Int.bmod_bmod_of_dvd (by decide)

namespace Cell

-- A corrected offset is the exact one up to a multiple of 65536. Nothing that
-- was cut off on the way can show in sixteen bits.
theorem toInt_sub_drift (offset : Int16) (recorded current : ApTracking) :
    (offset - recorded.drift current).toInt =
      (offset.toInt - recorded.distance current).bmod Int16.size := by
  rw [Int16.toInt_sub, ApTracking.toInt_drift]
  exact Int.sub_bmod_bmod

theorem toInt_sub_drift_of_fits (offset : Int16) (recorded current : ApTracking)
    (hlo : Int16.minValue.toInt ≤ offset.toInt - recorded.distance current)
    (hhi : offset.toInt - recorded.distance current ≤ Int16.maxValue.toInt) :
    (offset - recorded.drift current).toInt = offset.toInt - recorded.distance current := by
  have hmin : Int16.minValue.toInt = -2 ^ 15 := by decide
  have hmax : Int16.maxValue.toInt = 2 ^ 15 - 1 := by decide
  have hsize : Int16.size = 2 ^ 16 := rfl
  rw [toInt_sub_drift]
  exact Int.bmod_eq_of_le (by omega) (by omega)

theorem result_rebase_fp (offset : Int16) (recorded current : ApTracking) :
    (Cell.rebase recorded current { base := .fp, offset }).result = { base := .fp, offset } := rfl

theorem result_rebase_ap (offset : Int16) {recorded current : ApTracking}
    (hgroup : recorded.group = current.group) :
    (Cell.rebase recorded current { base := .ap, offset }).result =
      { base := .ap, offset := offset - recorded.drift current } := by
  have hsame : recorded.sameGroup current = true := by
    simp [ApTracking.sameGroup, hgroup]
  simp only [Cell.rebase, hsame, if_true]
  split <;> rfl

end Cell

-- A correction changes the cells of a reference and nothing else.
theorem Reference.result_rebase (recorded current : ApTracking) (reference : Reference) :
    (reference.rebase recorded current).result =
      reference.mapCells fun c => (c.rebase recorded current).result := by
  induction reference with
  | cell c => rfl
  | deref inner ih => exact congrArg deref ih
  | doubleDeref inner offset ih => exact congrArg (doubleDeref · offset) ih
  | immediate number => rfl
  | binary operator lhs rhs ihl ihr =>
      rw [mapCells, ← ihl, ← ihr]
      rfl

end SymbolicOperand
