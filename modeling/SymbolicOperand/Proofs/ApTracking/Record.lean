import Mathlib.Data.Int.ModEq
import Mathlib.Data.List.Forall2
import SymbolicOperand.Proofs.ApTracking.Composition

namespace SymbolicOperand

namespace ApTracking

theorem drift_eq_zero_iff (recorded current : ApTracking) :
    recorded.drift current = 0 ↔ 65536 ∣ recorded.distance current := by
  rw [← Int16.toInt_inj, toInt_drift]
  exact Int.dvd_iff_bmod_eq_zero.symm

theorem correction_ne_zero_iff (recorded current : ApTracking) :
    recorded.correction current ≠ 0 ↔
      recorded.group = current.group ∧ ¬ 65536 ∣ recorded.distance current := by
  by_cases hgroup : recorded.group = current.group
  · rw [correction, if_pos hgroup, ← drift_eq_zero_iff, and_iff_right hgroup]
  · rw [correction, if_neg hgroup]
    exact iff_of_false (fun h => h rfl) fun h => hgroup h.1

-- A corrected offset is the only one of its residue.
theorem eq_sub_drift_iff_modEq (recorded current : ApTracking) (before after : Int16) :
    after = before - recorded.drift current ↔
      after.toInt ≡ before.toInt - recorded.distance current [ZMOD 65536] := by
  have hafter : after.toInt.bmod Int16.size = after.toInt := after.toInt_bmod
  rw [← Int16.toInt_inj, Cell.toInt_sub_drift, ← hafter, Int.bmod_eq_bmod_iff_bmod_sub_eq_zero,
    ← Int.dvd_iff_bmod_eq_zero, Int.modEq_comm, Int.modEq_iff_dvd, hafter]
  rfl

end ApTracking

namespace Cell

theorem base_moveBack (distance : Int16) (cell : Cell) :
    (cell.moveBack distance).base = cell.base := by
  unfold moveBack
  split <;> rfl

theorem moveBack_eq_self_iff {distance : Int16} {cell : Cell} :
    cell.moveBack distance = cell ↔ (cell.base = .ap → distance = 0) := by
  obtain ⟨base, offset⟩ := cell
  cases base with
  | fp => simp [moveBack]
  | ap =>
      simp only [moveBack, Cell.mk.injEq, true_and, forall_const]
      grind

variable {recorded current : ApTracking}

theorem events_rebase_of_group_ne (offset : Int16) (hgroup : recorded.group ≠ current.group) :
    (Cell.rebase recorded current { base := .ap, offset }).events =
      [.groupMismatch { base := .ap, offset } recorded.group current.group] := by
  have hsame : recorded.sameGroup current = false := by
    simp [ApTracking.sameGroup, hgroup]
  simp only [rebase, hsame]
  rfl

-- Only a cell that moves is reported.
theorem events_rebase_of_group_eq (offset : Int16) (hgroup : recorded.group = current.group) :
    (Cell.rebase recorded current { base := .ap, offset }).events =
      if recorded.drift current = 0 then []
      else [.rebased { base := .ap, offset }
        { base := .ap, offset := offset - recorded.drift current }] := by
  have hsame : recorded.sameGroup current = true := by
    simp [ApTracking.sameGroup, hgroup]
  have hstays : offset - recorded.drift current = offset ↔ recorded.drift current = 0 := by
    grind
  simp only [rebase, hsame, if_true, ne_eq, Cell.mk.injEq, true_and, hstays]
  by_cases hdrift : recorded.drift current = 0
  · rw [if_pos hdrift, if_neg (not_not_intro hdrift)]
    rfl
  · rw [if_neg hdrift, if_pos hdrift]
    rfl

end Cell

namespace Reference

-- The leaves that are counted from `ap`, from left to right.
def apCells (reference : Reference) : List Cell :=
  reference.cells.filter (·.base = .ap)

-- Two references that differ at most in the offsets of such leaves.
inductive SameButAp : Reference → Reference → Prop where
  | ap (before after : Int16) :
      SameButAp (cell { base := .ap, offset := before }) (cell { base := .ap, offset := after })
  | fp (offset : Int16) :
      SameButAp (cell { base := .fp, offset }) (cell { base := .fp, offset })
  | deref {one other : Reference} (h : SameButAp one other) :
      SameButAp (deref one) (deref other)
  | doubleDeref {one other : Reference} (h : SameButAp one other) (offset : Int16) :
      SameButAp (doubleDeref one offset) (doubleDeref other offset)
  | immediate (number : Felt) : SameButAp (immediate number) (immediate number)
  | binary (operator : Operator) {lhs rhs lhs' rhs' : Reference} (hlhs : SameButAp lhs lhs')
      (hrhs : SameButAp rhs rhs') : SameButAp (binary operator lhs rhs) (binary operator lhs' rhs')

theorem mem_apCells {reference : Reference} {c : Cell} :
    c ∈ reference.apCells ↔ c ∈ reference.cells ∧ c.base = .ap := by
  simp [apCells]

theorem sameButAp_moveBack (reference : Reference) (distance : Int16) :
    reference.SameButAp (reference.mapCells (Cell.moveBack distance)) := by
  induction reference with
  | cell c =>
      obtain ⟨base, offset⟩ := c
      cases base with
      | ap => exact .ap _ _
      | fp => exact .fp _
  | deref inner ih => exact .deref ih
  | doubleDeref inner offset ih => exact .doubleDeref ih offset
  | immediate number => exact .immediate number
  | binary operator lhs rhs ihl ihr => exact .binary operator ihl ihr

theorem apCells_moveBack (reference : Reference) (distance : Int16) :
    (reference.mapCells (Cell.moveBack distance)).apCells =
      reference.apCells.map (Cell.moveBack distance) := by
  rw [apCells, apCells, cells_mapCells, List.filter_map]
  simp only [Function.comp_def, Cell.base_moveBack]

theorem moveBack_ne_self_iff (reference : Reference) (distance : Int16) :
    reference.mapCells (Cell.moveBack distance) ≠ reference ↔
      reference.apCells ≠ [] ∧ distance ≠ 0 := by
  rw [Ne, mapCells_eq_self_iff]
  constructor
  · intro h
    simp only [Cell.moveBack_eq_self_iff, not_forall, exists_prop] at h
    obtain ⟨c, hc, hbase, hdistance⟩ := h
    exact ⟨List.ne_nil_of_mem (mem_apCells.mpr ⟨hc, hbase⟩), hdistance⟩
  · rintro ⟨hcells, hdistance⟩ h
    obtain ⟨c, hc⟩ := List.exists_mem_of_ne_nil _ hcells
    obtain ⟨hmem, hbase⟩ := mem_apCells.mp hc
    exact hdistance (Cell.moveBack_eq_self_iff.mp (h c hmem) hbase)

-- A correction reports leaf by leaf.
theorem events_rebase (recorded current : ApTracking) (reference : Reference) :
    (reference.rebase recorded current).events =
      reference.apCells.flatMap fun c => (c.rebase recorded current).events := by
  induction reference with
  | cell c =>
      obtain ⟨base, offset⟩ := c
      cases base with
      | ap => exact (List.append_nil _).trans (List.append_nil _).symm
      | fp => rfl
  | deref inner ih => exact (List.append_nil _).trans ih
  | doubleDeref inner offset ih => exact (List.append_nil _).trans ih
  | immediate number => rfl
  | binary operator lhs rhs ihl ihr =>
      have hcells : (binary operator lhs rhs).apCells = lhs.apCells ++ rhs.apCells :=
        List.filter_append _ _
      have hevents : ((binary operator lhs rhs).rebase recorded current).events =
          (lhs.rebase recorded current).events ++ ((rhs.rebase recorded current).events ++ []) := rfl
      rw [hevents, List.append_nil, hcells, List.flatMap_append, ihl, ihr]

theorem events_rebase_of_group_ne {recorded current : ApTracking}
    (hgroup : recorded.group ≠ current.group) (reference : Reference) :
    (reference.rebase recorded current).events =
      reference.apCells.map fun c => .groupMismatch c recorded.group current.group := by
  rw [events_rebase, List.map_eq_flatMap]
  refine List.flatMap_congr ?_
  rintro ⟨base, offset⟩ hc
  obtain rfl := (mem_apCells.mp hc).2
  exact Cell.events_rebase_of_group_ne offset hgroup

theorem events_rebase_of_drift_eq_zero {recorded current : ApTracking}
    (hgroup : recorded.group = current.group) (hdrift : recorded.drift current = 0)
    (reference : Reference) : (reference.rebase recorded current).events = [] := by
  rw [events_rebase, List.flatMap_eq_nil_iff]
  rintro ⟨base, offset⟩ hc
  obtain rfl := (mem_apCells.mp hc).2
  rw [Cell.events_rebase_of_group_eq offset hgroup, if_pos hdrift]

theorem events_rebase_of_drift_ne_zero {recorded current : ApTracking}
    (hgroup : recorded.group = current.group) (hdrift : recorded.drift current ≠ 0)
    (reference : Reference) :
    (reference.rebase recorded current).events =
      reference.apCells.map fun c => .rebased c (c.moveBack (recorded.drift current)) := by
  rw [events_rebase, List.map_eq_flatMap]
  refine List.flatMap_congr ?_
  rintro ⟨base, offset⟩ hc
  obtain rfl := (mem_apCells.mp hc).2
  exact (Cell.events_rebase_of_group_eq offset hgroup).trans (if_neg hdrift)

theorem apCells_rebase {recorded current : ApTracking} (hgroup : recorded.group = current.group)
    (reference : Reference) :
    (reference.rebase recorded current).result.apCells =
      reference.apCells.map (Cell.moveBack (recorded.drift current)) := by
  rw [result_rebase_eq_moveBack, apCells_moveBack, ApTracking.correction, if_pos hgroup]

theorem rebase_ne_self_iff (recorded current : ApTracking) (reference : Reference) :
    (reference.rebase recorded current).result ≠ reference ↔
      recorded.group = current.group ∧ reference.apCells ≠ [] ∧
        ¬ 65536 ∣ recorded.distance current := by
  rw [result_rebase_eq_moveBack, moveBack_ne_self_iff, ApTracking.correction_ne_zero_iff]
  exact and_left_comm

theorem exists_rebased_mem_iff (recorded current : ApTracking) (reference : Reference) :
    (∃ before after, .rebased before after ∈ (reference.rebase recorded current).events) ↔
      recorded.group = current.group ∧ reference.apCells ≠ [] ∧
        ¬ 65536 ∣ recorded.distance current := by
  rw [← ApTracking.drift_eq_zero_iff]
  by_cases hgroup : recorded.group = current.group
  · by_cases hdrift : recorded.drift current = 0
    · simp [events_rebase_of_drift_eq_zero hgroup hdrift, hdrift]
    · simp [events_rebase_of_drift_ne_zero hgroup hdrift, hgroup, hdrift,
        List.eq_nil_iff_forall_not_mem]
  · simp [events_rebase_of_group_ne hgroup, hgroup]

-- Each leaf goes to the one offset of sixteen bits that lies as far back as the distance
-- says, up to multiples of 65536.
theorem forall₂_apCells_rebase {recorded current : ApTracking}
    (hgroup : recorded.group = current.group) (reference : Reference) :
    List.Forall₂ (fun before after => ∀ offset : Int16, offset = after.offset ↔
        offset.toInt ≡ before.offset.toInt - recorded.distance current [ZMOD 65536])
      reference.apCells (reference.rebase recorded current).result.apCells := by
  rw [apCells_rebase hgroup, List.forall₂_map_right_iff, List.forall₂_same]
  rintro ⟨base, before⟩ hc offset
  obtain rfl := (mem_apCells.mp hc).2
  exact ApTracking.eq_sub_drift_iff_modEq recorded current before offset

-- A correction touches the leaves that are counted from `ap` and nothing else, and its events
-- say from left to right what it did with each of them. Between groups it leaves every leaf as
-- it is and says so. Within one it moves all of them alike or, where sixteen bits do not show
-- the distance, none.
theorem rebase_edits_ap_cells (recorded current : ApTracking) (reference : Reference) :
    let corrected := reference.rebase recorded current
    reference.SameButAp corrected.result ∧
      (recorded.group ≠ current.group → corrected.result = reference ∧
        corrected.events =
          reference.apCells.map (fun c => .groupMismatch c recorded.group current.group) ∧
        corrected.events.map Event.fields = reference.apCells.map fun c =>
          [("reference", c.text), ("recorded_group", toString recorded.group),
            ("current_group", toString current.group)]) ∧
      (recorded.group = current.group →
        List.Forall₂ (fun before after => ∀ offset : Int16, offset = after.offset ↔
            offset.toInt ≡ before.offset.toInt - recorded.distance current [ZMOD 65536])
          reference.apCells corrected.result.apCells ∧
        (65536 ∣ recorded.distance current → corrected.events = []) ∧
        (¬ 65536 ∣ recorded.distance current →
          corrected.events = List.zipWith .rebased reference.apCells corrected.result.apCells ∧
          corrected.events.map Event.fields =
            List.zipWith (fun before after => [("from", before.text), ("to", after.text)])
              reference.apCells corrected.result.apCells)) ∧
      (corrected.result ≠ reference ↔ recorded.group = current.group ∧ reference.apCells ≠ [] ∧
        ¬ 65536 ∣ recorded.distance current) ∧
      (corrected.result ≠ reference ↔ ∃ before after, .rebased before after ∈ corrected.events) := by
  intro corrected
  have hchanged := rebase_ne_self_iff recorded current reference
  refine ⟨?_, ?_, ?_, hchanged, hchanged.trans (exists_rebased_mem_iff _ _ reference).symm⟩
  · have hresult := result_rebase_eq_moveBack recorded current reference
    exact hresult ▸ reference.sameButAp_moveBack _
  · intro hgroup
    have hevents := events_rebase_of_group_ne hgroup reference
    refine ⟨not_not.mp (mt hchanged.mp fun h => hgroup h.1), hevents, ?_⟩
    rw [hevents, List.map_map]
    rfl
  · intro hgroup
    refine ⟨forall₂_apCells_rebase hgroup reference, ?_, ?_⟩
    · intro hdvd
      exact events_rebase_of_drift_eq_zero hgroup (ApTracking.drift_eq_zero_iff _ _ |>.mpr hdvd) _
    · intro hdvd
      have hdrift := mt (ApTracking.drift_eq_zero_iff _ _).mp hdvd
      have hevents : corrected.events =
          List.zipWith .rebased reference.apCells corrected.result.apCells := by
        rw [apCells_rebase hgroup, List.zipWith_map_right, List.zipWith_self]
        exact events_rebase_of_drift_ne_zero hgroup hdrift reference
      refine ⟨hevents, ?_⟩
      rw [hevents, List.map_zipWith]
      rfl

-- The whole range of a word takes one off each leaf, and the least offset becomes the greatest.
-- A multiple of 65536 nearly as far away takes nothing off.
theorem rebase_edits_ap_cells_far :
    let recorded : ApTracking := { group := 5, offset := 0 }
    let last : ApTracking := { group := 5, offset := 18446744073709551615 }
    let aligned : ApTracking := { group := 5, offset := 18446744073709486080 }
    let other : ApTracking := { group := 6, offset := 3 }
    let least : Cell := { base := .ap, offset := -32768 }
    let fourth : Cell := { base := .ap, offset := 4 }
    let reference := binary .sub (doubleDeref (cell least) 7)
      (binary .mul (deref (cell { base := .fp, offset := 2 })) (deref (cell fourth)))
    (recorded.group = last.group ∧ ¬ 65536 ∣ recorded.distance last ∧
      (reference.rebase recorded last).events =
        [.rebased least { base := .ap, offset := 32767 },
          .rebased fourth { base := .ap, offset := 3 }]) ∧
      (65536 ∣ recorded.distance aligned ∧ (reference.rebase recorded aligned).events = []) ∧
      recorded.group ≠ other.group ∧ (reference.rebase recorded other).result = reference ∧
        (reference.rebase recorded other).events =
          [.groupMismatch least 5 6, .groupMismatch fourth 5 6] := by
  intro recorded last aligned other least fourth reference
  obtain ⟨-, -, hlast, -⟩ := rebase_edits_ap_cells recorded last reference
  obtain ⟨-, -, haligned, -⟩ := rebase_edits_ap_cells recorded aligned reference
  obtain ⟨-, hother, -⟩ := rebase_edits_ap_cells recorded other reference
  have hodd : ¬ 65536 ∣ recorded.distance last := by decide
  have hmultiple : 65536 ∣ recorded.distance aligned := by decide
  have hgroups : recorded.group ≠ other.group := by decide
  obtain ⟨-, -, hmoves⟩ := hlast rfl
  obtain ⟨-, hstays, -⟩ := haligned rfl
  obtain ⟨hresult, hevents, -⟩ := hother hgroups
  refine ⟨⟨rfl, hodd, ?_⟩, ⟨hmultiple, hstays hmultiple⟩, hgroups, hresult, hevents⟩
  rw [(hmoves hodd).1]
  decide

end Reference

end SymbolicOperand
