import SymbolicOperand.Proofs.Value.Displacement

namespace SymbolicOperand

namespace Felt

-- A field element as a distance: the upper half of the field is negative.
def signed (felt : Felt) : Int :=
  if 2 * felt.val < modulus then felt.val else felt.val - modulus

theorem neg_modulus_le_two_mul_signed (felt : Felt) : -(modulus : Int) ≤ 2 * felt.signed := by
  unfold signed
  split <;> omega

end Felt

namespace Address

-- The offset that a displacement leads to in the field. It may be no word.
def fieldSum (base : Address) (delta : Felt) : Nat :=
  (base.offset.toNat + delta.val) % Felt.modulus

-- The offset that it leads to among the integers. It may be negative.
def signedSum (base : Address) (delta : Felt) : Int :=
  base.offset.toNat + delta.signed

-- An offset is so short of half the prime that only a sum of the lower half stays below the
-- prime without being negative, and only one of the upper half passes it.
theorem fieldSum_eq (base : Address) (delta : Felt) :
    (base.fieldSum delta : Int) =
      if base.signedSum delta < 0 then base.signedSum delta + Felt.modulus
      else base.signedSum delta := by
  have hmodulus := Felt.two_mul_size_lt_modulus
  have hoffset := base.offset.toNat_lt_size
  have hdelta := delta.isLt
  unfold fieldSum signedSum Felt.signed
  by_cases hlower : 2 * delta.val < Felt.modulus
  · rw [if_pos hlower, if_neg (by omega), Nat.mod_eq_of_lt (by omega)]
    omega
  · rw [if_neg hlower]
    by_cases hpasses : Felt.modulus ≤ base.offset.toNat + delta.val
    · rw [if_neg (by omega), Nat.mod_eq_sub_mod hpasses, Nat.mod_eq_of_lt (by omega)]
      omega
    · rw [if_pos (by omega), Nat.mod_eq_of_lt (by omega)]
      omega

theorem fieldSum_lt_size_iff (base : Address) (delta : Felt) :
    base.fieldSum delta < UInt64.size ↔
      0 ≤ base.signedSum delta ∧ base.signedSum delta < UInt64.size := by
  have hmodulus := Felt.two_mul_size_lt_modulus
  have hsigned := delta.neg_modulus_le_two_mul_signed
  have hsum := base.fieldSum_eq delta
  have hmoved : base.signedSum delta = base.offset.toNat + delta.signed := rfl
  split at hsum <;> omega

theorem displace_of_fieldSum_lt {base : Address} {delta : Felt}
    (hlt : base.fieldSum delta < UInt64.size) :
    ∃ offset : UInt64, offset.toNat = base.fieldSum delta ∧
      base.displace delta = .ok { base with offset } := by
  have htoNat : (UInt64.ofNat (base.fieldSum delta)).toNat = base.fieldSum delta :=
    UInt64.toNat_ofNat_of_lt' hlt
  exact ⟨_, htoNat, displace_eq_ok_iff.mpr ⟨rfl, htoNat⟩⟩

theorem displace_of_size_le {base : Address} {delta : Felt}
    (hle : UInt64.size ≤ base.fieldSum delta) :
    base.displace delta = .error (.pointerOverflow base delta) := by
  rcases base.displace_cases delta with ⟨target, hok⟩ | herror
  · have hoffset := (displace_eq_ok_iff.mp hok).2
    have hlt := target.offset.toNat_lt_size
    unfold fieldSum at hle
    omega
  · exact herror

end Address

-- A pointer and a field element, in either order, add up to the pointer at the sum of the
-- offset and the signed reading of the element. That sum is the one of the field wherever
-- either of them is a word, and elsewhere both summands are reported.
theorem Value.add_pointer_exact (base : Address) (delta : Felt) :
    (base.fieldSum delta < UInt64.size ↔
        0 ≤ base.signedSum delta ∧ base.signedSum delta < UInt64.size) ∧
      (base.fieldSum delta < UInt64.size →
        (base.fieldSum delta : Int) = base.signedSum delta ∧
          ∃ offset : UInt64, offset.toNat = base.fieldSum delta ∧
            (address base).add (felt delta) = .ok (address { base with offset }) ∧
            (felt delta).add (address base) = .ok (address { base with offset })) ∧
      (UInt64.size ≤ base.fieldSum delta →
        (address base).add (felt delta) = .error (.pointerOverflow base delta) ∧
          (felt delta).add (address base) = .error (.pointerOverflow base delta)) := by
  refine ⟨base.fieldSum_lt_size_iff delta, ?_, ?_⟩
  · intro hlt
    have hnonneg := ((base.fieldSum_lt_size_iff delta).mp hlt).1
    obtain ⟨offset, hoffset, hok⟩ := Address.displace_of_fieldSum_lt hlt
    refine ⟨?_, offset, hoffset, ?_, ?_⟩
    · rw [base.fieldSum_eq, if_neg (by omega)]
    · rw [add, hok]
      rfl
    · rw [add, hok]
      rfl
  · intro hle
    have herror := Address.displace_of_size_le hle
    constructor
    · rw [add, herror]
      rfl
    · rw [add, herror]
      rfl

-- The whole way back from the last offset, and one step past it.
theorem Value.add_pointer_exact_last :
    let base : Address := { segment := 1, offset := 0xffffffffffffffff }
    let back : Felt := -0xffffffffffffffff
    (felt back).add (address base) = .ok (address { segment := 1, offset := 0 }) ∧
      (address base).add (felt 1) = .error (.pointerOverflow base 1) := by
  intro base back
  have hback : base.fieldSum back = 0 := by decide
  have hword : base.fieldSum back < UInt64.size := by decide
  have hpast : UInt64.size ≤ base.fieldSum 1 := by decide
  obtain ⟨-, hreached, -⟩ := add_pointer_exact base back
  obtain ⟨-, offset, hoffset, -, hok⟩ := hreached hword
  obtain rfl : offset = 0 := UInt64.toNat_inj.mp (hoffset.trans hback)
  exact ⟨hok, ((add_pointer_exact base 1).2.2 hpast).1⟩

end SymbolicOperand
