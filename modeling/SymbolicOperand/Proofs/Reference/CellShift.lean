import SymbolicOperand.Proofs.ApTracking.Composition
import SymbolicOperand.Proofs.Reference.Result
import SymbolicOperand.Proofs.Value.Displacement

namespace SymbolicOperand.Cell

-- The cell some places further at the width of an offset, whether or not the distance fits.
def advance (displacement : Int16) (cell : Cell) : Cell :=
  { cell with offset := cell.offset + displacement }

-- Sums of sixteen bits may be taken in any order.
theorem moveBack_advance (distance displacement : Int16) (cell : Cell) :
    (cell.advance displacement).moveBack distance =
      (cell.moveBack distance).advance displacement := by
  obtain ⟨base, offset⟩ := cell
  cases base with
  | ap =>
      have hoffset : offset + displacement - distance = offset - distance + displacement := by
        grind
      simp only [advance, moveBack, hoffset]
  | fp => rfl

variable {cell shifted : Cell} {displacement : Int16} {registers : Registers}

-- A shifted cell is at the sum over the integers.
theorem shift?_eq_some_iff :
    cell.shift? displacement = some shifted ↔
      shifted.base = cell.base ∧
        shifted.offset.toInt = cell.offset.toInt + displacement.toInt := by
  obtain ⟨base, offset⟩ := shifted
  have hlo := offset.le_toInt
  have hhi := offset.toInt_lt
  simp only [shift?, Int16.toInt_minValue, Int16.toInt_maxValue]
  split
  · next hfits =>
      have hsum := Int16.toInt_ofInt_of_le hfits.1 (by omega)
      rw [Option.some.injEq, mk.injEq, ← Int16.toInt_inj, hsum]
      exact and_congr eq_comm eq_comm
  · next hfits =>
      simp only [reduceCtorEq, false_iff]
      omega

theorem eq_advance_of_shift? (hshift : cell.shift? displacement = some shifted) :
    shifted = cell.advance displacement := by
  obtain ⟨base, offset⟩ := shifted
  obtain ⟨rfl, hsum⟩ := shift?_eq_some_iff.mp hshift
  rw [advance, ← Int16.ofInt_toInt offset, hsum, Int16.ofInt_add, Int16.ofInt_toInt,
    Int16.ofInt_toInt]

theorem locate_shifted_eq_ok_iff {address target : Address}
    (hshift : cell.shift? displacement = some shifted)
    (hlocate : cell.locate registers = .ok address) :
    shifted.locate registers = .ok target ↔ address.shift? displacement = some target := by
  obtain ⟨hbase, hsum⟩ := shift?_eq_some_iff.mp hshift
  obtain ⟨hsegment, hoffset⟩ := locate_eq_ok_iff.mp hlocate
  rw [locate_eq_ok_iff, Address.shift?_eq_some_iff, hsegment, hoffset, hbase, hsum, Int.add_assoc]

theorem locate_shifted_of_shift?_eq_none {address : Address}
    (hshift : cell.shift? displacement = some shifted)
    (hlocate : cell.locate registers = .ok address) (hnone : address.shift? displacement = none) :
    shifted.locate registers =
      .error (.offsetOverflow (registers.get shifted.base) shifted.offset) := by
  cases hfound : shifted.locate registers with
  | ok target =>
      rw [(locate_shifted_eq_ok_iff hshift hlocate).mp hfound] at hnone
      cases hnone
  | error error => rw [locate_error_cases hfound]

-- Shifting a cell shifts its address, and leads out of the words exactly where the address
-- cannot be shifted. It makes no difference to a correction whether it comes before or after.
theorem shift_commutes (hshift : cell.shift? displacement = some shifted) :
    (∀ registers address, cell.locate registers = .ok address →
        (∀ target, shifted.locate registers = .ok target ↔
          address.shift? displacement = some target) ∧
        (address.shift? displacement = none →
          shifted.locate registers =
            .error (.offsetOverflow (registers.get shifted.base) shifted.offset))) ∧
      (∀ located ∈ [cell, shifted], ∀ registers address, located.locate registers = .ok address ↔
        address.segment = executionSegment ∧
          (address.offset.toNat : Int) =
            (registers.get located.base).toNat + located.offset.toInt) ∧
      ∀ recorded current moved,
        (cell.rebase recorded current).result.shift? displacement = some moved →
          moved = (shifted.rebase recorded current).result := by
  refine ⟨?_, ?_, ?_⟩
  · intro registers address hlocate
    exact ⟨fun _ => locate_shifted_eq_ok_iff hshift hlocate,
      locate_shifted_of_shift?_eq_none hshift hlocate⟩
  · intro located _ registers address
    exact locate_eq_ok_iff
  · intro recorded current moved hmoved
    rw [result_rebase] at hmoved ⊢
    rw [eq_advance_of_shift? hmoved, eq_advance_of_shift? hshift, moveBack_advance]

-- The shift reaches the last offset of a cell and the last one of the segment, or goes one
-- past it. The distance of the correction does not fit in an offset, the corrected cell does.
theorem shift_commutes_last :
    let cell : Cell := { base := .ap, offset := 32766 }
    let shifted : Cell := { base := .ap, offset := 32767 }
    let nearer := Registers.start 0xffffffffffff8000
    let farther := Registers.start 0xffffffffffff8001
    let recorded : ApTracking := { group := 4, offset := 40000 }
    let current : ApTracking := { group := 4, offset := 0 }
    cell.shift? 1 = some shifted ∧
      shifted.locate nearer = .ok { segment := executionSegment, offset := 0xffffffffffffffff } ∧
      shifted.locate farther = .error (.offsetOverflow 0xffffffffffff8001 32767) ∧
      (shifted.rebase recorded current).result = { base := .ap, offset := -7233 } := by
  intro cell shifted nearer farther recorded current
  have hshift : cell.shift? 1 = some shifted := by decide
  have hbefore : cell.locate nearer =
      .ok { segment := executionSegment, offset := 0xfffffffffffffffe } :=
    locate_eq_ok_iff.mpr (by decide)
  have hlast : cell.locate farther =
      .ok { segment := executionSegment, offset := 0xffffffffffffffff } :=
    locate_eq_ok_iff.mpr (by decide)
  have hmoved : (cell.rebase recorded current).result.shift? 1 =
      some { base := .ap, offset := -7233 } := by decide
  obtain ⟨hlocate, -, hrebase⟩ := shift_commutes hshift
  refine ⟨hshift, ?_, ?_, (hrebase _ _ _ hmoved).symm⟩
  · exact ((hlocate _ _ hbefore).1 _).mpr (by decide)
  · exact (hlocate _ _ hlast).2 (by decide)

end SymbolicOperand.Cell
