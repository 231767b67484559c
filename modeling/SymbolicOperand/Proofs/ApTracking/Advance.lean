import SymbolicOperand.Proofs.ApTracking.Composition
import SymbolicOperand.Proofs.ApTracking.Rebase

namespace SymbolicOperand

namespace ApTracking

-- Two points of one group, and a machine at each of them. Between them only `ap` has
-- moved, and it stands as far from the start of the group as the descriptors say.
structure Advances (start : Nat) (recorded current : ApTracking) (before after : Machine) :
    Prop where
  group : recorded.group = current.group
  apBefore : before.registers.ap.toNat = start + recorded.offset.toNat
  apAfter : after.registers.ap.toNat = start + current.offset.toNat
  fp : after.registers.fp = before.registers.fp
  memory : after.memory = before.memory

-- The two directions of a correction differ by twice the distance. Sixteen bits do not
-- show the difference when it is a multiple of 65536.
theorem drift_comm_iff (recorded current : ApTracking) :
    recorded.drift current = current.drift recorded ↔ 32768 ∣ current.distance recorded := by
  have hsize : ((Int16.size : Nat) : Int) = 65536 := rfl
  have hopposite : recorded.distance current = -current.distance recorded := by
    unfold distance
    omega
  rw [← Int16.toInt_inj, toInt_drift, toInt_drift, Int.bmod_eq_bmod_iff_bmod_sub_eq_zero,
    ← Int.dvd_iff_bmod_eq_zero, hsize, hopposite]
  omega

end ApTracking

variable {start : Nat} {recorded current : ApTracking} {before after : Machine}

-- From the later point the distance leads back to the cell of the earlier one.
theorem ApTracking.Advances.related_locate (h : Advances start recorded current before after)
    (c : Cell)
    (hfits : c.base = .ap → Int16.minValue.toInt ≤ c.offset.toInt - current.distance recorded ∧
      c.offset.toInt - current.distance recorded ≤ Int16.maxValue.toInt) :
    Related Eq ResolveError.SameKind
      ((c.rebase current recorded).result.locate after.registers) (c.locate before.registers) := by
  apply Cell.related_locate
  obtain ⟨base, offset⟩ := c
  cases base with
  | fp => simp only [Cell.result_rebase_fp, Registers.get, h.fp]
  | ap =>
      obtain ⟨hlo, hhi⟩ := hfits rfl
      have hbefore := h.apBefore
      have hafter := h.apAfter
      rw [Cell.result_rebase_ap offset h.group.symm]
      simp only [Registers.get, Cell.toInt_sub_drift_of_fits offset current recorded hlo hhi,
        distance]
      omega

-- An offset decides the cell, so both directions lead to one cell only when they are the
-- same correction.
theorem ApTracking.Advances.locate_forward_iff (h : Advances start recorded current before after)
    {offset : Int16} {address : Address}
    (hback : (Cell.rebase current recorded { base := .ap, offset }).result.locate
      after.registers = .ok address) :
    (Cell.rebase recorded current { base := .ap, offset }).result.locate after.registers =
        .ok address ↔
      recorded.drift current = current.drift recorded := by
  rw [Cell.result_rebase_ap offset h.group.symm] at hback
  rw [Cell.result_rebase_ap offset h.group]
  constructor
  · intro hforward
    have hsum := (Cell.locate_eq_ok_iff.mp hback).2.symm.trans (Cell.locate_eq_ok_iff.mp hforward).2
    have hoffset : offset - recorded.drift current = offset - current.drift recorded := by
      rw [← Int16.toInt_inj]
      simp only [Registers.get] at hsum
      omega
    grind
  · intro hdrift
    rw [hdrift]
    exact hback

theorem Related.eq_ok {α : Type} {first second : Except ResolveError α}
    (h : Related Eq ResolveError.SameKind first second) {value : α}
    (hsecond : second = .ok value) : first = .ok value := by
  cases h with
  | ok h => exact h ▸ hsecond
  | error h => cases hsecond

namespace Reference

-- The correction that keeps what a reference denotes is the one from the current
-- descriptor back to the recorded one. The one from the recorded to the current moves
-- a cell counted from `ap` as far again, and finds it only where the two are the same.
theorem rebase_back_agrees (reference : Reference)
    (h : ApTracking.Advances start recorded current before after)
    (hfits : ∀ c ∈ reference.cells, c.base = .ap →
      Int16.minValue.toInt ≤ c.offset.toInt - current.distance recorded ∧
        c.offset.toInt - current.distance recorded ≤ Int16.maxValue.toInt) :
    Agree ((reference.rebase current recorded).result.locate after).result
        (reference.locate before).result ∧
      Agree ((reference.rebase current recorded).result.resolve after).result
        (reference.resolve before).result ∧
      (∀ c ∈ reference.cells, c.base = .ap → ∀ address, c.locate before.registers = .ok address →
        ((c.rebase recorded current).result.locate after.registers = .ok address ↔
          32768 ∣ current.distance recorded)) ∧
      (32768 ∣ current.distance recorded →
        (reference.rebase recorded current).result =
          (reference.rebase current recorded).result) := by
  have hcells (c : Cell) (hc : c ∈ reference.cells) := h.related_locate c (hfits c hc)
  refine ⟨?_, ?_, ?_, ?_⟩
  · rw [result_rebase]
    exact ((simulation_of_memory_eq h.memory).reference reference hcells).1.agree
  · rw [result_rebase]
    exact ((simulation_of_memory_eq h.memory).reference reference hcells).2.agree
  · rintro ⟨base, offset⟩ hc rfl address hlocate
    rw [← ApTracking.drift_comm_iff]
    exact h.locate_forward_iff ((hcells _ hc).eq_ok hlocate)
  · intro hdvd
    have hdrift := (ApTracking.drift_comm_iff recorded current).mpr hdvd
    rw [result_rebase_eq_moveBack, result_rebase_eq_moveBack, ApTracking.correction,
      ApTracking.correction, if_pos h.group, if_pos h.group.symm, hdrift]

-- `ap` has moved on by more than sixteen bits can say. The corrected offset is the least one.
-- At both points the pointer is in the fourth cell, and it leads to the value in the first.
theorem rebase_back_agrees_far :
    let recorded : ApTracking := { group := 4, offset := 0 }
    let current : ApTracking := { group := 4, offset := 32770 }
    let reference := doubleDeref (cell { base := .ap, offset := 2 }) (-3)
    let pointer : Value := .address { segment := executionSegment, offset := 3 }
    let before : Machine := { Machine.start (Registers.start 1) with
      memory := { segments := #[{}, { cells := #[some (.felt 7), none, none, some pointer] }] } }
    let after := { before with registers := { before.registers with ap := 32771 } }
    let corrected := (reference.rebase current recorded).result
    ApTracking.Advances 1 recorded current before after ∧
      corrected = doubleDeref (cell { base := .ap, offset := -32768 }) (-3) ∧
      (reference.locate before).result = .ok { segment := executionSegment, offset := 0 } ∧
      Agree (corrected.locate after).result (reference.locate before).result ∧
      (reference.resolve before).result = .ok (.felt 7) ∧
      Agree (corrected.resolve after).result (reference.resolve before).result := by
  intro recorded current reference pointer before after corrected
  have hadvances : ApTracking.Advances 1 recorded current before after :=
    ⟨rfl, by decide, by decide, rfl, rfl⟩
  have hfits : ∀ c ∈ [({ base := .ap, offset := 2 } : Cell)], c.base = .ap →
      Int16.minValue.toInt ≤ c.offset.toInt - current.distance recorded ∧
        c.offset.toInt - current.distance recorded ≤ Int16.maxValue.toInt := by
    decide
  obtain ⟨hlocate, hresolve, -⟩ := rebase_back_agrees reference hadvances hfits
  exact ⟨hadvances, by decide, rfl, hlocate, rfl, hresolve⟩

-- `ap` has moved on by two. The cell is ten and holds seven. The correction from the recorded
-- to the current descriptor names fourteen, and that cell holds nothing.
theorem rebase_forward_misses :
    let recorded : ApTracking := { group := 1, offset := 0 }
    let current : ApTracking := { group := 1, offset := 2 }
    let reference := deref (cell { base := .ap, offset := 0 })
    let before : Machine := { Machine.start (Registers.start 10) with
      memory := { segments := #[{}, { cells := .replicate 10 none ++ #[some (.felt 7)] }] } }
    let after := { before with registers := { before.registers with ap := 12 } }
    let missed : Address := { segment := executionSegment, offset := 14 }
    ApTracking.Advances 10 recorded current before after ∧
      (∀ c ∈ reference.cells, c.base = .ap →
        Int16.minValue.toInt ≤ c.offset.toInt - current.distance recorded ∧
          c.offset.toInt - current.distance recorded ≤ Int16.maxValue.toInt) ∧
      (reference.locate before).result = .ok { segment := executionSegment, offset := 10 } ∧
      (reference.resolve before).result = .ok (.felt 7) ∧
      ((reference.rebase recorded current).result.locate after).result = .ok missed ∧
      ((reference.rebase recorded current).result.resolve after).result =
        .error (.memory (.uninitialized missed)) := by
  intro recorded current reference before after missed
  refine ⟨⟨rfl, by decide, by decide, rfl, rfl⟩, ?_, by rfl, by rfl, by rfl, by rfl⟩
  show ∀ c ∈ [({ base := .ap, offset := 0 } : Cell)], _
  decide

end Reference

end SymbolicOperand
