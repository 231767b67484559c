import SymbolicOperand.Value.Arithmetic

namespace SymbolicOperand

namespace Felt

-- Two words have a sum that no word can be confused with, even modulo the prime.
theorem two_mul_size_lt_modulus : 2 * UInt64.size < modulus := by
  decide

theorem toWord?_eq_some_iff {felt : Felt} {word : UInt64} :
    felt.toWord? = some word ↔ word.toNat = felt.val :=
  Word.ofNat?_eq_some_iff

theorem size_le_val_of_toWord? {felt : Felt} (h : felt.toWord? = none) :
    UInt64.size ≤ felt.val := by
  unfold toWord? Word.ofNat? at h
  split at h
  · cases h
  · next hsize => omega

-- The representative of the negation of a felt other than zero.
theorem val_neg_add_val (felt : Felt) (h : felt.val ≠ 0) : (-felt).val + felt.val = modulus := by
  have hlt := felt.isLt
  have hval : (-felt).val = (modulus - felt.val) % modulus := rfl
  rw [hval, Nat.mod_eq_of_lt (by omega)]
  omega

theorem val_ofInt (n : Int) : ((ofInt n).val : Int) = n % modulus := by
  have hmodulus := modulus_ne_zero
  have hnonneg : 0 ≤ n % (modulus : Int) := Int.emod_nonneg _ (by omega)
  have hlt : n % (modulus : Int) < modulus := Int.emod_lt_of_pos _ (by omega)
  have hval : (ofInt n).val = (n % modulus).toNat % modulus := rfl
  rw [hval, Nat.mod_eq_of_lt (by omega)]
  omega

end Felt

namespace Address

theorem shift?_eq_some_iff {base target : Address} {displacement : Int16} :
    base.shift? displacement = some target ↔
      target.segment = base.segment ∧
        (target.offset.toNat : Int) = base.offset.toNat + displacement.toInt := by
  obtain ⟨segment, offset⟩ := target
  rw [← Word.shift?_eq_some_iff, shift?]
  cases Word.shift? base.offset displacement with
  | none => simp
  | some found => simp [eq_comm]

-- How the offset of a displaced pointer is found, apart from the pointer.
def displacedOffset? (offset : UInt64) (delta : Felt) : Option UInt64 :=
  match delta.toWord?, (-delta).toWord? with
  | some distance, _ => Word.forward? offset distance
  | none, some distance => Word.backward? offset distance
  | none, none => none

-- The offset after a displacement is the sum in the field. The forward and the backward
-- reading cover all sums that are words: any other element is too far from every word.
theorem displacedOffset?_eq_some_iff {offset word : UInt64} {delta : Felt} :
    displacedOffset? offset delta = some word ↔
      word.toNat = (offset.toNat + delta.val) % Felt.modulus := by
  have hmodulus := Felt.two_mul_size_lt_modulus
  have hoffset := offset.toNat_lt_size
  have hword := word.toNat_lt_size
  have hdelta := delta.isLt
  unfold displacedOffset?
  split
  · next distance hforward =>
      have hdistance := Felt.toWord?_eq_some_iff.mp hforward
      have hlt := distance.toNat_lt_size
      rw [Word.forward?_eq_some_iff, Nat.mod_eq_of_lt (by omega), hdistance]
  · next distance hforward hbackward =>
      have hsize := Felt.size_le_val_of_toWord? hforward
      have hdistance := Felt.toWord?_eq_some_iff.mp hbackward
      have hlt := distance.toNat_lt_size
      have hneg := Felt.val_neg_add_val delta (by omega)
      rw [Word.backward?_eq_some_iff]
      by_cases hle : distance.toNat ≤ offset.toNat
      · rw [Nat.mod_eq_sub_mod (by omega), Nat.mod_eq_of_lt (by omega)]
        omega
      · rw [Nat.mod_eq_of_lt (by omega)]
        omega
  · next hforward hbackward =>
      have hsize := Felt.size_le_val_of_toWord? hforward
      have hnegSize := Felt.size_le_val_of_toWord? hbackward
      have hneg := Felt.val_neg_add_val delta (by omega)
      rw [Nat.mod_eq_of_lt (by omega)]
      simp only [reduceCtorEq, false_iff]
      omega

theorem displace_eq (base : Address) (delta : Felt) :
    base.displace delta =
      match displacedOffset? base.offset delta with
      | some offset => .ok { base with offset }
      | none => .error (.pointerOverflow base delta) := rfl

theorem displace_cases (base : Address) (delta : Felt) :
    (∃ target, base.displace delta = .ok target) ∨
      base.displace delta = .error (.pointerOverflow base delta) := by
  rw [displace_eq]
  split
  · exact .inl ⟨_, rfl⟩
  · exact .inr rfl

theorem displace_eq_ok_iff {base target : Address} {delta : Felt} :
    base.displace delta = .ok target ↔
      target.segment = base.segment ∧
        target.offset.toNat = (base.offset.toNat + delta.val) % Felt.modulus := by
  obtain ⟨segment, offset⟩ := target
  rw [← displacedOffset?_eq_some_iff, displace_eq]
  cases displacedOffset? base.offset delta with
  | none => simp
  | some found => simp [eq_comm]

-- A distance that is less than half the prime is read back with its sign.
theorem displace_ofInt_eq_ok_iff {base target : Address} {distance : Int}
    (hlo : -(Felt.modulus : Int) < 2 * distance) (hhi : 2 * distance < Felt.modulus) :
    base.displace (Felt.ofInt distance) = .ok target ↔
      target.segment = base.segment ∧
        (target.offset.toNat : Int) = base.offset.toNat + distance := by
  have hmodulus := Felt.two_mul_size_lt_modulus
  have hbase := base.offset.toNat_lt_size
  have htarget := target.offset.toNat_lt_size
  rw [displace_eq_ok_iff, ← Int.natCast_inj, Int.natCast_emod, Int.natCast_add, Felt.val_ofInt,
    Int.add_emod_emod]
  apply and_congr_right
  intro _
  by_cases hnonneg : 0 ≤ base.offset.toNat + distance
  · rw [Int.emod_eq_of_lt hnonneg (by omega)]
  · rw [← Int.add_emod_right, Int.emod_eq_of_lt (by omega) (by omega)]
    omega

end Address

end SymbolicOperand
