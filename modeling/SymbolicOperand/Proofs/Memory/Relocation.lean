import Mathlib.Logic.Equiv.Basic
import SymbolicOperand.Proofs.Memory.Lemmas
import SymbolicOperand.Proofs.Value.Displacement

namespace SymbolicOperand

-- Another numbering of the segments. The execution segment keeps its number, because
-- cells are located in it, and so does every index that no segment was allocated for.
structure Renumbering (count : Nat) where
  perm : Equiv.Perm UInt64
  execution : perm executionSegment = executionSegment
  unallocated : ∀ index, count ≤ index.toNat → perm index = index

theorem Renumbering.perm_lt_iff {count : Nat} (renumbering : Renumbering count) (index : UInt64) :
    (renumbering.perm index).toNat < count ↔ index.toNat < count := by
  rw [← not_iff_not, Nat.not_lt, Nat.not_lt]
  constructor
  · intro hle
    have hfixed := renumbering.perm.injective (renumbering.unallocated _ hle)
    rwa [hfixed] at hle
  · intro hle
    rwa [renumbering.unallocated index hle]

section Relocate

variable (move : UInt64 → UInt64)

def Address.relocate (address : Address) : Address :=
  { address with segment := move address.segment }

def Value.relocate : Value → Value
  | address target => address (target.relocate move)
  | felt number => felt number

def MemoryError.relocate : MemoryError → MemoryError
  | uninitialized cell => uninitialized (cell.relocate move)
  | unknownSegment segment => unknownSegment (move segment)
  | unaddressable cell => unaddressable (cell.relocate move)
  | conflict cell old new => conflict (cell.relocate move) (old.relocate move) (new.relocate move)
  | illTyped operator lhs rhs => illTyped operator (lhs.relocate move) (rhs.relocate move)
  | pointerOverflow base delta => pointerOverflow (base.relocate move) delta

-- Arithmetic carries the segment of a pointer along and never looks at it.
theorem Address.shift?_relocate (address : Address) (displacement : Int16) :
    (address.relocate move).shift? displacement =
      (address.shift? displacement).map (Address.relocate move) := by
  unfold shift?
  rw [Option.map_map]
  rfl

theorem Address.displace_relocate (base : Address) (delta : Felt) :
    (base.relocate move).displace delta =
      ((base.displace delta).map (Address.relocate move)).mapError (MemoryError.relocate move) := by
  rw [displace_eq, displace_eq, relocate]
  cases displacedOffset? base.offset delta with
  | none => rfl
  | some offset => rfl

theorem Value.add_relocate (lhs rhs : Value) :
    (lhs.relocate move).add (rhs.relocate move) =
      ((lhs.add rhs).map (Value.relocate move)).mapError (MemoryError.relocate move) := by
  have hdisplace (base : Address) (delta : Felt) :
      ((base.relocate move).displace delta).map Value.address =
        (((base.displace delta).map Value.address).map (Value.relocate move)).mapError
          (MemoryError.relocate move) := by
    rw [Address.displace_relocate]
    cases base.displace delta with
    | error cause => rfl
    | ok target => rfl
  cases lhs with
  | address base =>
      cases rhs with
      | address other => rfl
      | felt delta => exact hdisplace base delta
  | felt delta =>
      cases rhs with
      | address base => exact hdisplace base delta
      | felt number => rfl

theorem Value.mul_relocate (lhs rhs : Value) :
    (lhs.relocate move).mul (rhs.relocate move) =
      ((lhs.mul rhs).map (Value.relocate move)).mapError (MemoryError.relocate move) := by
  cases lhs with
  | address base => cases rhs <;> rfl
  | felt number => cases rhs <;> rfl

end Relocate

namespace Memory

-- The second memory holds under the new number of each segment what the first holds under
-- the old one, and its pointers follow the new numbers.
structure Relocates (move : UInt64 → UInt64) (first second : Memory) : Prop where
  segmentCount : second.segmentCount = first.segmentCount
  segment? : ∀ index segment, first.segment? index = some segment →
    ∃ moved, second.segment? (move index) = some moved ∧
      ∀ offset, moved.get? offset = (segment.get? offset).map (Value.relocate move)

theorem Relocates.read {first second : Memory} (renumbering : Renumbering first.segmentCount)
    (h : first.Relocates renumbering.perm second) (cell : Address) :
    second.read (cell.relocate renumbering.perm) =
      ((first.read cell).map (Value.relocate renumbering.perm)).mapError
        (MemoryError.relocate renumbering.perm) := by
  cases hsegment : first.segment? cell.segment with
  | none =>
      -- no segment has the index, so it stays what it is
      have hle := (first.segment?_eq_none_iff _).mp hsegment
      have hfixed := renumbering.unallocated _ hle
      rw [← h.segmentCount, ← segment?_eq_none_iff] at hle
      simp only [Memory.read, Address.relocate, hfixed, hsegment, hle]
      exact congrArg (fun index => Except.error (MemoryError.unknownSegment index)) hfixed.symm
  | some segment =>
      obtain ⟨moved, hmoved, hget⟩ := h.segment? _ _ hsegment
      simp only [Memory.read, Address.relocate, hsegment, hmoved, hget]
      cases segment.get? cell.offset with
      | none => rfl
      | some value => rfl

end Memory

def Segment.relocate (move : UInt64 → UInt64) (segment : Segment) : Segment :=
  { cells := segment.cells.map (Option.map (Value.relocate move)) }

theorem Segment.get?_relocate (move : UInt64 → UInt64) (segment : Segment) (offset : UInt64) :
    (segment.relocate move).get? offset = (segment.get? offset).map (Value.relocate move) := by
  simp only [get?, relocate, Array.getElem?_map]
  cases segment.cells[offset.toNat]? with
  | none => rfl
  | some content => rfl

namespace Memory

variable (memory : Memory) (renumbering : Renumbering memory.segmentCount)

-- Every memory has a relocated one: each number is given to the segment that it stands for.
def relocate : Memory :=
  { segments := Array.ofFn fun index : Fin memory.segmentCount =>
      ((memory.segment? (renumbering.perm.symm (UInt64.ofNat index))).getD {}).relocate
        renumbering.perm }

theorem segment?_relocate (index : UInt64) (hlt : index.toNat < memory.segmentCount) :
    (memory.relocate renumbering).segment? (renumbering.perm index) =
      some (((memory.segment? index).getD {}).relocate renumbering.perm) := by
  have hmoved := (renumbering.perm_lt_iff index).mpr hlt
  simp only [relocate, segment?, Array.getElem?_ofFn, dif_pos hmoved, UInt64.ofNat_toNat,
    Equiv.symm_apply_apply]

theorem relocates_relocate : memory.Relocates renumbering.perm (memory.relocate renumbering) where
  segmentCount := by simp [relocate, segmentCount]
  segment? index segment hsegment := by
    have hlt : index.toNat < memory.segmentCount := (Array.getElem?_eq_some_iff.mp hsegment).1
    refine ⟨segment.relocate renumbering.perm, ?_, segment.get?_relocate renumbering.perm⟩
    rw [segment?_relocate memory renumbering index hlt, hsegment, Option.getD_some]

end Memory

end SymbolicOperand
