import SymbolicOperand.Proofs.Reference.Success
import SymbolicOperand.Proofs.Value.Parts

namespace SymbolicOperand

-- The two sides of an operator count alike, except in an error.
theorem Operator.apply_comm_ok {operator : Operator} {lhs rhs value : Value} :
    operator.apply lhs rhs = .ok value ↔ operator.apply rhs lhs = .ok value := by
  cases operator with
  | add => rw [apply_add_eq_ok_iff, apply_add_eq_ok_iff, Value.add_eq_ok_iff,
      Value.add_eq_ok_iff, add_comm]
  | mul =>
      cases lhs with
      | address target => cases rhs <;> exact ⟨nofun, nofun⟩
      | felt number =>
          cases rhs with
          | address target => exact ⟨nofun, nofun⟩
          | felt other => simp only [apply, Value.mul, Fin.mul_comm number]
  | sub => exact Iff.rfl

namespace Reference

-- The same reference but for the sides of some operators, anywhere in it.
inductive Exchanged : Reference → Reference → Prop where
  | cell (c : Cell) : Exchanged (cell c) (cell c)
  | deref {inner other : Reference} (hinner : Exchanged inner other) :
      Exchanged (deref inner) (deref other)
  | doubleDeref {inner other : Reference} (offset : Int16) (hinner : Exchanged inner other) :
      Exchanged (doubleDeref inner offset) (doubleDeref other offset)
  | immediate (number : Felt) : Exchanged (immediate number) (immediate number)
  | keep {lhs rhs lhs' rhs' : Reference} (operator : Operator) (hlhs : Exchanged lhs lhs')
      (hrhs : Exchanged rhs rhs') :
      Exchanged (binary operator lhs rhs) (binary operator lhs' rhs')
  | swap {lhs rhs lhs' rhs' : Reference} (operator : Operator) (hlhs : Exchanged lhs lhs')
      (hrhs : Exchanged rhs rhs') :
      Exchanged (binary operator lhs rhs) (binary operator rhs' lhs')

variable {machine : Machine} {reference other : Reference}

theorem Exchanged.locate_resolve_iff (h : reference.Exchanged other) :
    (∀ target, (reference.locate machine).result = .ok target ↔
        (other.locate machine).result = .ok target) ∧
      ∀ value, (reference.resolve machine).result = .ok value ↔
        (other.resolve machine).result = .ok value := by
  induction h with
  | cell c => exact ⟨fun _ => Iff.rfl, fun _ => Iff.rfl⟩
  | deref hinner ih =>
      refine ⟨ih.1, ?_⟩
      simp only [resolve_deref_eq_ok_iff, ih.1, implies_true]
  | doubleDeref offset hinner ih =>
      constructor
      · simp only [locate_doubleDeref_eq_ok_iff, resolve_deref_eq_ok_iff, ih.1, implies_true]
      · simp only [resolve_doubleDeref_eq_ok_iff, locate_doubleDeref_eq_ok_iff,
          resolve_deref_eq_ok_iff, ih.1, implies_true]
  | immediate number => exact ⟨fun _ => Iff.rfl, fun _ => Iff.rfl⟩
  | keep operator hlhs hrhs ihl ihr =>
      refine ⟨fun _ => ⟨nofun, nofun⟩, ?_⟩
      simp only [resolve_binary_eq_ok_iff, ihl.2, ihr.2, implies_true]
  | swap operator hlhs hrhs ihl ihr =>
      refine ⟨fun _ => ⟨nofun, nofun⟩, ?_⟩
      intro value
      simp only [resolve_binary_eq_ok_iff, ihl.2, ihr.2]
      constructor
      · rintro ⟨left, hleft, right, hright, happly⟩
        exact ⟨right, hright, left, hleft, Operator.apply_comm_ok.mp happly⟩
      · rintro ⟨right, hright, left, hleft, happly⟩
        exact ⟨left, hleft, right, hright, Operator.apply_comm_ok.mp happly⟩

theorem Exchanged.resolve_iff (h : reference.Exchanged other) (value : Value) :
    (reference.resolve machine).result = .ok value ↔
      (other.resolve machine).result = .ok value :=
  h.locate_resolve_iff.2 value

end Reference

end SymbolicOperand
