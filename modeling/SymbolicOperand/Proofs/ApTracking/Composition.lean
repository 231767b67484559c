import SymbolicOperand.Proofs.ApTracking.Drift

namespace SymbolicOperand

namespace ApTracking

-- Drifts add up along a chain of points. The difference of two words wraps, and so
-- does its cut to sixteen bits: both keep sums.
theorem drift_add_drift (a b c : ApTracking) : a.drift b + b.drift c = a.drift c := by
  have hwords : a.offset - b.offset + (b.offset - c.offset) = a.offset - c.offset := by
    grind
  rw [drift, drift, drift, ← Int64.toInt16_add, ← UInt64.toInt64_add, hwords]

@[simp]
theorem drift_self (a : ApTracking) : a.drift a = 0 := by
  rw [drift, UInt64.sub_self]
  rfl

-- What a correction takes off the offset of a cell counted from `ap`. Points of
-- different groups are not comparable, so nothing is taken off between them.
def correction (recorded current : ApTracking) : Int16 :=
  if recorded.group = current.group then recorded.drift current else 0

theorem correction_add_correction {a b c : ApTracking} (hab : a.group = b.group)
    (hbc : b.group = c.group) : a.correction b + b.correction c = a.correction c := by
  simp only [correction, hab, hbc, if_true, drift_add_drift]

@[simp]
theorem correction_self (a : ApTracking) : a.correction a = 0 := by
  simp only [correction, if_true, drift_self]

theorem correction_add_swap (a b : ApTracking) : a.correction b + b.correction a = 0 := by
  by_cases hgroup : a.group = b.group
  · rw [correction_add_correction hgroup hgroup.symm, correction_self]
  · rw [correction, correction, if_neg hgroup, if_neg (Ne.symm hgroup), Int16.add_zero]

end ApTracking

namespace Cell

-- A cell counted from `ap` moves back, one counted from `fp` stays.
def moveBack (distance : Int16) (cell : Cell) : Cell :=
  match cell.base with
  | .ap => { cell with offset := cell.offset - distance }
  | .fp => cell

@[simp]
theorem moveBack_zero : moveBack 0 = id := by
  funext ⟨base, offset⟩
  cases base with
  | ap => simp only [moveBack, Int16.sub_zero, id]
  | fp => rfl

theorem moveBack_comp_moveBack (first second : Int16) :
    moveBack second ∘ moveBack first = moveBack (first + second) := by
  funext ⟨base, offset⟩
  cases base with
  | ap => simp only [moveBack, Function.comp, Int16.sub_sub]
  | fp => rfl

theorem result_rebase (recorded current : ApTracking) (cell : Cell) :
    (cell.rebase recorded current).result = cell.moveBack (recorded.correction current) := by
  obtain ⟨base, offset⟩ := cell
  cases base with
  | fp => rfl
  | ap =>
      by_cases hgroup : recorded.group = current.group
      · rw [result_rebase_ap offset hgroup, ApTracking.correction, if_pos hgroup, moveBack]
      · have hsame : recorded.sameGroup current = false := by
          simp [ApTracking.sameGroup, hgroup]
        rw [ApTracking.correction, if_neg hgroup, moveBack_zero]
        simp only [rebase, hsame]
        rfl

end Cell

namespace Reference

theorem result_rebase_eq_moveBack (recorded current : ApTracking) (reference : Reference) :
    (reference.rebase recorded current).result =
      reference.mapCells (Cell.moveBack (recorded.correction current)) := by
  rw [result_rebase, funext (Cell.result_rebase recorded current)]

-- Two corrections move every cell back by the sum of what they take off.
theorem result_rebase_rebase (reference : Reference) (a b c d : ApTracking) :
    ((reference.rebase a b).result.rebase c d).result =
      reference.mapCells (Cell.moveBack (a.correction b + c.correction d)) := by
  rw [result_rebase_eq_moveBack, result_rebase_eq_moveBack, mapCells_mapCells,
    Cell.moveBack_comp_moveBack]

-- Corrections along a chain of points are one correction, a correction there and back
-- is none, and the order of two corrections is free, whether or not the groups match.
theorem rebase_composes (reference : Reference) (a b c d : ApTracking) :
    (a.group = b.group → b.group = c.group →
        ((reference.rebase a b).result.rebase b c).result = (reference.rebase a c).result) ∧
      ((reference.rebase a b).result.rebase b a).result = reference ∧
      (reference.rebase a a).result = reference ∧
      ((reference.rebase a b).result.rebase c d).result =
        ((reference.rebase c d).result.rebase a b).result := by
  refine ⟨?_, ?_, ?_, ?_⟩
  · intro hab hbc
    rw [result_rebase_rebase, ApTracking.correction_add_correction hab hbc,
      ← result_rebase_eq_moveBack]
  · rw [result_rebase_rebase, ApTracking.correction_add_swap, Cell.moveBack_zero, mapCells_id]
  · rw [result_rebase_eq_moveBack, ApTracking.correction_self, Cell.moveBack_zero, mapCells_id]
  · rw [result_rebase_rebase, result_rebase_rebase, Int16.add_comm]

-- Three points of a group, as far apart as words are, and one of another group.
theorem rebase_composes_far :
    let a : ApTracking := { group := 5, offset := 0 }
    let b : ApTracking := { group := 5, offset := 9223372036854775808 }
    let c : ApTracking := { group := 5, offset := 18446744073709551615 }
    let d : ApTracking := { group := 6, offset := 3 }
    let reference := binary .sub (doubleDeref (cell { base := .ap, offset := -32768 }) 7)
      (deref (cell { base := .fp, offset := 2 }))
    a.group = b.group ∧ b.group = c.group ∧
      ((reference.rebase a b).result.rebase b c).result = (reference.rebase a c).result ∧
      ((reference.rebase a b).result.rebase b a).result = reference ∧
      (reference.rebase a a).result = reference ∧
      ((reference.rebase a b).result.rebase c d).result =
        ((reference.rebase c d).result.rebase a b).result := by
  intro a b c d reference
  obtain ⟨hchain, hback, hself, hswap⟩ := rebase_composes reference a b c d
  exact ⟨rfl, rfl, hchain rfl rfl, hback, hself, hswap⟩

end Reference

end SymbolicOperand
