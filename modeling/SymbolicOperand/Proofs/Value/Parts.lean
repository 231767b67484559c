import Mathlib.Data.ZMod.Defs
import Mathlib.Algebra.Group.Prod
import Mathlib.Algebra.Order.Group.Multiset
import SymbolicOperand.Proofs.Value.Displacement

namespace SymbolicOperand

def Felt.ofWord (word : UInt64) : Felt :=
  Fin.ofNat modulus word.toNat

theorem Felt.val_ofWord (word : UInt64) : (ofWord word).val = word.toNat := by
  have hmodulus := two_mul_size_lt_modulus
  have hword := word.toNat_lt_size
  exact Nat.mod_eq_of_lt (by omega)

theorem Felt.ofWord_inj {word other : UInt64} : ofWord word = ofWord other ↔ word = other := by
  rw [Fin.ext_iff, val_ofWord, val_ofWord, UInt64.toNat_inj]

-- In the field the offset of a displaced pointer is a plain sum.
theorem Address.displace_eq_ok_iff_ofWord {base target : Address} {delta : Felt} :
    base.displace delta = .ok target ↔
      target.segment = base.segment ∧
        Felt.ofWord target.offset = Felt.ofWord base.offset + delta := by
  rw [displace_eq_ok_iff, Fin.ext_iff, Fin.val_add, Felt.val_ofWord, Felt.val_ofWord]

namespace Value

-- A value taken apart: the segment it points into, if it is a pointer, and its number.
-- Unlike values, parts always have a sum.
def parts : Value → Multiset UInt64 × Felt
  | address target => ({target.segment}, Felt.ofWord target.offset)
  | felt number => (0, number)

theorem parts_felt_add (number other : Felt) :
    (felt (number + other)).parts = (felt number).parts + (felt other).parts := by
  simp only [parts, Prod.mk_add_mk, add_zero]

theorem parts_inj {value other : Value} : value.parts = other.parts ↔ value = other := by
  cases value with
  | address target =>
      cases other with
      | address found =>
          obtain ⟨segment, offset⟩ := target
          obtain ⟨segment', offset'⟩ := found
          simp [parts, Felt.ofWord_inj]
      | felt number => simp [parts]
  | felt number =>
      cases other with
      | address found => simp [parts]
      | felt number' => simp [parts]

theorem card_parts (value : Value) : value.parts.1.card = if value.isAddress then 1 else 0 := by
  cases value with
  | address target => rfl
  | felt number => rfl

theorem parts_eq_singleton_iff {value : Value} {segment : UInt64} {number : Felt} :
    value.parts = ({segment}, number) ↔
      ∃ target, value = .address target ∧
        target.segment = segment ∧ Felt.ofWord target.offset = number := by
  cases value with
  | address target => simp [parts]
  | felt found => simp [parts]

theorem map_displace_eq_ok_iff {base : Address} {delta : Felt} {value : Value} :
    (base.displace delta).map address = .ok value ↔
      value.parts = ({base.segment}, Felt.ofWord base.offset + delta) := by
  rw [parts_eq_singleton_iff]
  constructor
  · intro h
    cases hdisplace : base.displace delta with
    | error error =>
        rw [hdisplace] at h
        cases h
    | ok target =>
        rw [hdisplace] at h
        cases h
        exact ⟨target, rfl, Address.displace_eq_ok_iff_ofWord.mp hdisplace⟩
  · rintro ⟨target, rfl, htarget⟩
    rw [Address.displace_eq_ok_iff_ofWord.mpr htarget]
    rfl

-- A sum has a value exactly when some value has the sum of the parts: two pointers have
-- a segment too many, and an offset that is no word has no pointer.
theorem add_eq_ok_iff {lhs rhs value : Value} :
    lhs.add rhs = .ok value ↔ value.parts = lhs.parts + rhs.parts := by
  cases lhs with
  | address base =>
      cases rhs with
      | address other =>
          refine ⟨nofun, ?_⟩
          intro h
          have hcard := value.card_parts
          rw [h, Prod.fst_add, Multiset.card_add, card_parts, card_parts] at hcard
          cases value with
          | address target => cases hcard
          | felt number => cases hcard
      | felt delta => simp only [add, map_displace_eq_ok_iff, parts, Prod.mk_add_mk, add_zero]
  | felt delta =>
      cases rhs with
      | address base =>
          simp only [add, map_displace_eq_ok_iff, parts, Prod.mk_add_mk, zero_add,
            add_comm delta]
      | felt number => rw [← parts_felt_add, parts_inj, add, Except.ok.injEq, eq_comm]

end Value

end SymbolicOperand
