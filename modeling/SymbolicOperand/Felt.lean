import SymbolicOperand.Word

namespace SymbolicOperand

namespace Felt

-- The prime over which the machine computes.
def modulus : Nat := Nat.pow 2 251 + 17 * Nat.pow 2 192 + 1

theorem modulus_ne_zero : modulus ≠ 0 := by
  decide

-- Spelled out, because `Nat` has more than one `Zero` once Mathlib is imported.
instance : @NeZero Nat Zero.ofOfNat0 modulus := ⟨modulus_ne_zero⟩

end Felt

-- Field elements are kept as their canonical representatives, so two elements
-- are equal exactly when their representatives are.
abbrev Felt := Fin Felt.modulus

namespace Felt

def ofInt (n : Int) : Felt :=
  Fin.ofNat modulus (n % modulus).toNat

-- The canonical representative as a word, if it fits.
def toWord? (felt : Felt) : Option UInt64 :=
  Word.ofNat? felt.val

def text (felt : Felt) : String :=
  toString felt.val

end Felt

end SymbolicOperand
