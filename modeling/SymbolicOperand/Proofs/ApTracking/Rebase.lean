import SymbolicOperand.Proofs.ApTracking.Drift
import SymbolicOperand.Proofs.Reference.Agreement

namespace SymbolicOperand

-- Locating sees a register and an offset only through their sum.
theorem Cell.related_locate {one other : Cell} {first second : Registers}
    (hsum : ((first.get one.base).toNat : Int) + one.offset.toInt =
      (second.get other.base).toNat + other.offset.toInt) :
    Related Eq ResolveError.SameKind (one.locate first) (other.locate second) := by
  have hshift : Word.shift? (first.get one.base) one.offset =
      Word.shift? (second.get other.base) other.offset := by
    simp only [Word.shift?, hsum]
  unfold Cell.locate
  rw [hshift]
  cases Word.shift? (second.get other.base) other.offset with
  | none => exact .error trivial
  | some offset => exact .ok rfl

namespace Reference

-- A corrected reference denotes what the recorded one denoted on the machine whose
-- `ap` lies back by the distance, as long as each corrected offset fits.
theorem rebase_agrees (reference : Reference) (recorded current : ApTracking)
    (machine moved : Machine) (hgroup : recorded.group = current.group)
    (hap : (moved.registers.ap.toNat : Int) =
      machine.registers.ap.toNat - recorded.distance current)
    (hfp : moved.registers.fp = machine.registers.fp) (hmemory : moved.memory = machine.memory)
    (hfits : ∀ c ∈ reference.cells, c.base = .ap →
      Int16.minValue.toInt ≤ c.offset.toInt - recorded.distance current ∧
        c.offset.toInt - recorded.distance current ≤ Int16.maxValue.toInt) :
    Agree ((reference.rebase recorded current).result.locate machine).result
        (reference.locate moved).result ∧
      Agree ((reference.rebase recorded current).result.resolve machine).result
        (reference.resolve moved).result := by
  have hcells : ∀ c ∈ reference.cells, Related Eq ResolveError.SameKind
      ((c.rebase recorded current).result.locate machine.registers) (c.locate moved.registers) := by
    intro c hc
    apply Cell.related_locate
    obtain ⟨base, offset⟩ := c
    cases base with
    | fp => simp only [Cell.result_rebase_fp, Registers.get, hfp]
    | ap =>
        obtain ⟨hlo, hhi⟩ := hfits _ hc rfl
        simp only [Cell.result_rebase_ap offset hgroup, Registers.get]
        rw [Cell.toInt_sub_drift_of_fits offset recorded current hlo hhi]
        omega
  rw [result_rebase]
  obtain ⟨hlocate, hresolve⟩ := (simulation_of_memory_eq hmemory.symm).reference reference hcells
  exact ⟨hlocate.agree, hresolve.agree⟩

-- The distance does not fit in sixteen bits. The corrected offset is the least one. On both
-- machines the pointer is in the sixth cell, and it leads to the value in the fourth.
theorem rebase_agrees_far :
    let recorded : ApTracking := { group := 3, offset := 9223372036854808581 }
    let current : ApTracking := { group := 3, offset := 9223372036854775808 }
    let reference := doubleDeref (cell { base := .ap, offset := 5 }) 1
    let pointer : Value := .address { segment := executionSegment, offset := 2 }
    let machine : Machine := { Machine.start (Registers.start 32773) with
      memory := { segments :=
        #[{}, { cells := #[none, none, none, some (.felt 7), none, some pointer] }] } }
    let moved := { machine with registers := { machine.registers with ap := 0 } }
    let corrected := (reference.rebase recorded current).result
    recorded.distance current = 32773 ∧
      corrected = doubleDeref (cell { base := .ap, offset := -32768 }) 1 ∧
      (reference.locate moved).result = .ok { segment := executionSegment, offset := 3 } ∧
      Agree (corrected.locate machine).result (reference.locate moved).result ∧
      (reference.resolve moved).result = .ok (.felt 7) ∧
      Agree (corrected.resolve machine).result (reference.resolve moved).result := by
  intro recorded current reference pointer machine moved corrected
  have hap : (moved.registers.ap.toNat : Int) =
      machine.registers.ap.toNat - recorded.distance current := by
    show (0 : Int) = 32773 - recorded.distance current
    decide
  have hfits : ∀ c ∈ [({ base := .ap, offset := 5 } : Cell)], c.base = .ap →
      Int16.minValue.toInt ≤ c.offset.toInt - recorded.distance current ∧
        c.offset.toInt - recorded.distance current ≤ Int16.maxValue.toInt := by
    decide
  obtain ⟨hlocate, hresolve⟩ :=
    rebase_agrees reference recorded current machine moved rfl hap rfl rfl hfits
  exact ⟨by decide, by decide, rfl, hlocate, rfl, hresolve⟩

end Reference

end SymbolicOperand
