import Mathlib.Algebra.BigOperators.Group.List.Basic
import SymbolicOperand.Proofs.Reference.Exchange

namespace SymbolicOperand.Reference

-- The operands of a nest of operators, from left to right.
def operands : Reference → List Reference
  | binary _ lhs rhs => lhs.operands ++ rhs.operands
  | reference => [reference]

-- A nest of additions, in any bracketing.
def IsSum : Reference → Prop
  | binary operator lhs rhs => operator = .add ∧ lhs.IsSum ∧ rhs.IsSum
  | _ => True

variable (machine : Machine)

def isPointer (reference : Reference) : Bool :=
  match (reference.resolve machine).result with
  | .ok value => value.isAddress
  | .error _ => false

def parts (reference : Reference) : Multiset UInt64 × Felt :=
  match (reference.resolve machine).result with
  | .ok value => value.parts
  | .error _ => 0

theorem card_parts (reference : Reference) :
    (reference.parts machine).1.card = if reference.isPointer machine then 1 else 0 := by
  unfold parts isPointer
  cases (reference.resolve machine).result with
  | ok value => exact value.card_parts
  | error error => rfl

theorem card_sum_parts (references : List Reference) :
    (references.map (parts machine)).sum.1.card = references.countP (isPointer machine) := by
  induction references with
  | nil => rfl
  | cons reference references ih =>
      rw [List.map_cons, List.sum_cons, Prod.fst_add, Multiset.card_add, card_parts, ih,
        List.countP_cons, Nat.add_comm]

variable {machine}

-- An operand that is no operator itself stands for its own value.
theorem parts_operand {reference : Reference} {value : Value}
    (hvalue : (reference.resolve machine).result = .ok value) :
    value.parts = ([reference].map (parts machine)).sum := by
  rw [List.map_singleton, List.sum_singleton, parts, hvalue]

-- The value of a sum has the parts of its operands, however they are bracketed.
theorem parts_sum {reference : Reference} (hsum : reference.IsSum) {value : Value}
    (hvalue : (reference.resolve machine).result = .ok value) :
    value.parts = (reference.operands.map (parts machine)).sum := by
  induction reference generalizing value with
  | cell c => exact parts_operand hvalue
  | deref inner ih => exact parts_operand hvalue
  | doubleDeref inner offset ih => exact parts_operand hvalue
  | immediate number => exact parts_operand hvalue
  | binary operator lhs rhs ihl ihr =>
      obtain ⟨rfl, hlhs, hrhs⟩ := hsum
      obtain ⟨left, hleft, right, hright, happly⟩ := resolve_binary_eq_ok_iff.mp hvalue
      rw [operands, List.map_append, List.sum_append, ← ihl hlhs hleft, ← ihr hrhs hright]
      exact Value.add_eq_ok_iff.mp (Operator.apply_add_eq_ok_iff.mp happly)

theorem countP_isPointer_of_sum {reference : Reference} (hsum : reference.IsSum) {value : Value}
    (hvalue : (reference.resolve machine).result = .ok value) :
    reference.operands.countP (isPointer machine) = if value.isAddress then 1 else 0 := by
  rw [← card_sum_parts, ← parts_sum hsum hvalue, Value.card_parts]

-- Neither the order nor the bracketing of a sum shows in its value, although one of them
-- may leave the offsets of a segment on the way where another does not. A pointer comes
-- out exactly when one goes in. The sides of any operator can be exchanged.
theorem sum_unordered (machine : Machine) :
    (∀ reference other : Reference, reference.IsSum → other.IsSum →
      reference.operands.Perm other.operands → ∀ value found,
        (reference.resolve machine).result = .ok value →
          (other.resolve machine).result = .ok found → value = found) ∧
      (∀ reference : Reference, reference.IsSum → ∀ value,
        (reference.resolve machine).result = .ok value →
          reference.operands.countP (isPointer machine) ≤ 1 ∧
            (value.isAddress = true ↔ reference.operands.countP (isPointer machine) = 1)) ∧
      ∀ reference other : Reference, reference.Exchanged other → ∀ value,
        (reference.resolve machine).result = .ok value ↔
          (other.resolve machine).result = .ok value := by
  refine ⟨?_, ?_, fun _ _ h => h.resolve_iff⟩
  · intro reference other hsum hother hperm value found hvalue hfound
    rw [← Value.parts_inj, parts_sum hsum hvalue, parts_sum hother hfound]
    exact (hperm.map _).sum_eq
  · intro reference hsum value hvalue
    rw [countP_isPointer_of_sum hsum hvalue]
    cases value with
    | address target => simp [Value.isAddress]
    | felt number => simp [Value.isAddress]

-- A pointer moved forward and back, and the same operands from right to left.
theorem sum_unordered_pointer :
    let machine : Machine := { Machine.start (Registers.start 0) with
      memory := { segments :=
        #[{}, { cells := #[some (.address { segment := 2, offset := 5 })] }] } }
    let pointer := deref (cell { base := .fp, offset := 0 })
    let reference :=
      binary .add (binary .add pointer (immediate 7)) (immediate (Felt.ofInt (-3)))
    let other := binary .add (immediate (Felt.ofInt (-3))) (binary .add (immediate 7) pointer)
    ∃ value found, (reference.resolve machine).result = .ok value ∧
      (other.resolve machine).result = .ok found ∧ value = found ∧
        (value.isAddress = true ↔ reference.operands.countP (isPointer machine) = 1) ∧
          ((reference.resolve machine).result = .ok value ↔
            (other.resolve machine).result = .ok value) := by
  intro machine pointer reference other
  obtain ⟨hunique, hpointer, hexchange⟩ := sum_unordered machine
  have hsum : reference.IsSum := ⟨rfl, ⟨rfl, trivial, trivial⟩, trivial⟩
  have hother : other.IsSum := ⟨rfl, trivial, rfl, trivial, trivial⟩
  have hperm : reference.operands.Perm other.operands := (List.reverse_perm reference.operands).symm
  have hexchanged : reference.Exchanged other :=
    .swap .add (.swap .add (.deref (.cell _)) (.immediate _)) (.immediate _)
  have hvalue : (reference.resolve machine).result = .ok (.address { segment := 2, offset := 9 }) :=
    rfl
  have hfound : (other.resolve machine).result = .ok (.address { segment := 2, offset := 9 }) := rfl
  exact ⟨_, _, hvalue, hfound, hunique reference other hsum hother hperm _ _ hvalue hfound,
    (hpointer reference hsum _ hvalue).2, hexchange reference other hexchanged _⟩

end SymbolicOperand.Reference
