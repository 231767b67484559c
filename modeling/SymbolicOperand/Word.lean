/-!
Machine words are unsigned 64-bit numbers. Nothing here wraps: a result that is no word is `none`.
-/

namespace SymbolicOperand.Word

-- The word that holds a natural number, if one does.
def ofNat? (n : Nat) : Option UInt64 :=
  if n < UInt64.size then some (UInt64.ofNat n) else none

-- Move a word by a signed displacement. The sum is taken over the integers, so
-- both ends of the range are seen before anything is truncated.
def shift? (base : UInt64) (displacement : Int16) : Option UInt64 :=
  let sum : Int := base.toNat + displacement.toInt
  if 0 ≤ sum then ofNat? sum.toNat else none

-- Advance by a distance. The room above `base` is compared first, which keeps
-- the addition below from wrapping.
def forward? (base distance : UInt64) : Option UInt64 :=
  if distance ≤ UInt64.ofNat (UInt64.size - 1) - base then some (base + distance) else none

-- Go back by a distance that is at most `base`.
def backward? (base distance : UInt64) : Option UInt64 :=
  if distance ≤ base then some (base - distance) else none

theorem ofNat?_eq_some_iff {n : Nat} {word : UInt64} : ofNat? n = some word ↔ word.toNat = n := by
  have hword := word.toNat_lt_size
  unfold ofNat?
  split
  · next h =>
      rw [Option.some.injEq, ← UInt64.toNat_inj, UInt64.toNat_ofNat_of_lt' h]
      exact eq_comm
  · next h =>
      simp only [reduceCtorEq, false_iff]
      omega

-- A displaced word is the sum over the integers.
theorem shift?_eq_some_iff {base word : UInt64} {displacement : Int16} :
    shift? base displacement = some word ↔
      (word.toNat : Int) = base.toNat + displacement.toInt := by
  simp only [shift?]
  split
  · rw [ofNat?_eq_some_iff]
    omega
  · simp only [reduceCtorEq, false_iff]
    omega

private theorem toNat_room (base : UInt64) :
    (UInt64.ofNat (UInt64.size - 1) - base).toNat = UInt64.size - 1 - base.toNat := by
  have hbase := base.toNat_lt_size
  have hlast : (UInt64.ofNat (UInt64.size - 1)).toNat = UInt64.size - 1 := rfl
  rw [UInt64.toNat_sub_of_le _ _ (UInt64.le_iff_toNat_le.mpr (by omega)), hlast]

theorem forward?_eq_some_iff {base distance word : UInt64} :
    forward? base distance = some word ↔ word.toNat = base.toNat + distance.toNat := by
  have hword := word.toNat_lt_size
  have hbase := base.toNat_lt_size
  have hsize : UInt64.size = 2 ^ 64 := rfl
  simp only [forward?, UInt64.le_iff_toNat_le, toNat_room]
  split
  · next h =>
      rw [Option.some.injEq, ← UInt64.toNat_inj, UInt64.toNat_add, Nat.mod_eq_of_lt (by omega)]
      exact eq_comm
  · next h =>
      simp only [reduceCtorEq, false_iff]
      omega

theorem backward?_eq_some_iff {base distance word : UInt64} :
    backward? base distance = some word ↔ word.toNat + distance.toNat = base.toNat := by
  simp only [backward?, UInt64.le_iff_toNat_le]
  split
  · next h =>
      rw [Option.some.injEq, ← UInt64.toNat_inj,
        UInt64.toNat_sub_of_le _ _ (UInt64.le_iff_toNat_le.mpr h)]
      omega
  · next h =>
      simp only [reduceCtorEq, false_iff]
      omega

end SymbolicOperand.Word
