import SymbolicOperand.Proofs.Reference.Result

namespace SymbolicOperand

theorem bind_eq_ok_iff {ε α β : Type} {outcome : Except ε α} {next : α → Except ε β} {value : β} :
    outcome >>= next = .ok value ↔ ∃ found, outcome = .ok found ∧ next found = .ok value := by
  cases outcome with
  | error error => simp [bind, Except.bind]
  | ok found => simp [bind, Except.bind]

theorem Operator.apply_add_eq_ok_iff {lhs rhs value : Value} :
    add.apply lhs rhs = .ok value ↔ lhs.add rhs = .ok value :=
  mapError_eq_ok_iff

namespace Reference

variable {machine : Machine}

-- A call succeeds exactly when the calls below it do, and nothing of the contexts is
-- left in a success.
theorem resolve_deref_eq_ok_iff {inner : Reference} {value : Value} :
    ((deref inner).resolve machine).result = .ok value ↔
      ∃ target, (inner.locate machine).result = .ok target ∧
        machine.memory.read target = .ok value := by
  simp only [result_resolve_deref, bind_eq_ok_iff, mapError_eq_ok_iff, Machine.result_fetch]

theorem locate_doubleDeref_eq_ok_iff {inner : Reference} {offset : Int16} {target : Address} :
    ((doubleDeref inner offset).locate machine).result = .ok target ↔
      ∃ pointer, ((deref inner).resolve machine).result = .ok pointer ∧
        pointer.target offset = .ok target := by
  simp only [result_locate_doubleDeref, bind_eq_ok_iff, mapError_eq_ok_iff]

theorem resolve_doubleDeref_eq_ok_iff {inner : Reference} {offset : Int16} {value : Value} :
    ((doubleDeref inner offset).resolve machine).result = .ok value ↔
      ∃ target, ((doubleDeref inner offset).locate machine).result = .ok target ∧
        machine.memory.read target = .ok value := by
  simp only [result_resolve_doubleDeref, bind_eq_ok_iff, mapError_eq_ok_iff, Machine.result_fetch]

theorem resolve_binary_eq_ok_iff {operator : Operator} {lhs rhs : Reference} {value : Value} :
    ((binary operator lhs rhs).resolve machine).result = .ok value ↔
      ∃ left, (lhs.resolve machine).result = .ok left ∧
        ∃ right, (rhs.resolve machine).result = .ok right ∧
          operator.apply left right = .ok value := by
  simp only [result_resolve_binary, bind_eq_ok_iff, mapError_eq_ok_iff]

end Reference

end SymbolicOperand
