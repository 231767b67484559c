import SymbolicOperand.Proofs.Memory.Lemmas
import SymbolicOperand.Proofs.Reference.Result

namespace SymbolicOperand

-- The cell that an attempt lacked, if that is what stopped it.
def missing? {α : Type} : Except ResolveError α → Option Address
  | .ok _ => none
  | .error error =>
      match error.root with
      | .memory (.uninitialized cell) => some cell
      | _ => none

section Missing

variable {α β : Type}

theorem missing?_eq_some_iff {outcome : Except ResolveError α} {cell : Address} :
    missing? outcome = some cell ↔
      ∃ error, outcome = .error error ∧ error.root = .memory (.uninitialized cell) := by
  cases outcome with
  | ok value => simp [missing?]
  | error error =>
      simp only [missing?, Except.error.injEq, exists_eq_left']
      split
      · next found h => simp [h]
      · next h => simpa using h cell

theorem missing?_eq_none_iff {outcome : Except ResolveError α} :
    missing? outcome = none ↔
      (∃ value, outcome = .ok value) ∨
        ∃ error, outcome = .error error ∧ error.severity = .fatal := by
  cases outcome with
  | ok value => simp [missing?]
  | error error =>
      simp only [missing?, ResolveError.severity]
      split <;> simp_all

@[simp]
theorem missing?_context (outcome : Except ResolveError α) (step : String) :
    missing? (outcome.mapError (.context step)) = missing? outcome := by
  cases outcome with
  | ok value => rfl
  | error error => rfl

theorem missing?_bind_eq_some_iff {outcome : Except ResolveError α}
    {next : α → Except ResolveError β} {cell : Address} :
    missing? (outcome >>= next) = some cell ↔
      missing? outcome = some cell ∨
        ∃ value, outcome = .ok value ∧ missing? (next value) = some cell := by
  cases outcome with
  | ok value => simp [missing?, bind, Except.bind]
  | error error => simp [missing?, bind, Except.bind]

theorem missing?_fetch_eq_some_iff {machine : Machine} {cell other : Address} :
    missing? (machine.fetch cell).result = some other ↔
      other = cell ∧ machine.memory.read cell = .error (.uninitialized cell) := by
  rw [Machine.result_fetch]
  rcases machine.memory.read_cases cell with ⟨-, hread⟩ | ⟨-, hread | ⟨value, hread⟩⟩
  · simp [hread, missing?, ResolveError.root]
  · simp [hread, missing?, ResolveError.root, eq_comm]
  · simp [hread, missing?]

@[simp]
theorem missing?_locate (cell : Cell) (registers : Registers) :
    missing? (cell.locate registers) = none := by
  cases hlocate : cell.locate registers with
  | ok address => rfl
  | error error =>
      obtain rfl := Cell.locate_error_cases hlocate
      rfl

-- Neither the arithmetic nor the step from a pointer to a cell reads memory.
@[simp]
theorem missing?_target (pointer : Value) (offset : Int16) :
    missing? (pointer.target offset) = none := by
  cases htarget : pointer.target offset with
  | ok address => rfl
  | error error =>
      rcases Value.target_error_cases htarget with ⟨base, -, rfl⟩ | ⟨number, -, rfl⟩
      · rfl
      · rfl

@[simp]
theorem missing?_apply (operator : Operator) (lhs rhs : Value) :
    missing? (operator.apply lhs rhs) = none := by
  cases happly : operator.apply lhs rhs with
  | ok value => rfl
  | error error =>
      rcases Operator.apply_error_cases happly with rfl | ⟨base, delta, rfl⟩ | ⟨-, rfl⟩
      · rfl
      · rfl
      · rfl

end Missing

namespace Reference

variable {machine : Machine} {cell : Address}

-- Where an attempt can lack a cell, constructor by constructor.
theorem missing?_resolve_deref_iff {inner : Reference} :
    missing? ((deref inner).resolve machine).result = some cell ↔
      missing? (inner.locate machine).result = some cell ∨
        (inner.locate machine).result = .ok cell ∧
          machine.memory.read cell = .error (.uninitialized cell) := by
  rw [result_resolve_deref, missing?_bind_eq_some_iff, missing?_context]
  refine or_congr_right ⟨?_, ?_⟩
  · rintro ⟨target, hlocate, hfetch⟩
    obtain ⟨rfl, hread⟩ := missing?_fetch_eq_some_iff.mp hfetch
    exact ⟨mapError_eq_ok_iff.mp hlocate, hread⟩
  · rintro ⟨hlocate, hread⟩
    exact ⟨cell, mapError_eq_ok_iff.mpr hlocate, missing?_fetch_eq_some_iff.mpr ⟨rfl, hread⟩⟩

theorem missing?_locate_doubleDeref_iff {inner : Reference} {offset : Int16} :
    missing? ((doubleDeref inner offset).locate machine).result = some cell ↔
      missing? ((deref inner).resolve machine).result = some cell := by
  rw [result_locate_doubleDeref, missing?_bind_eq_some_iff, missing?_context]
  simp only [missing?_target, reduceCtorEq, and_false, exists_false, or_false]

theorem missing?_resolve_doubleDeref_iff {inner : Reference} {offset : Int16} :
    missing? ((doubleDeref inner offset).resolve machine).result = some cell ↔
      missing? ((doubleDeref inner offset).locate machine).result = some cell ∨
        ((doubleDeref inner offset).locate machine).result = .ok cell ∧
          machine.memory.read cell = .error (.uninitialized cell) := by
  rw [result_resolve_doubleDeref, missing?_bind_eq_some_iff]
  refine or_congr_right ⟨?_, ?_⟩
  · rintro ⟨target, hlocate, hfetch⟩
    rw [missing?_context] at hfetch
    obtain ⟨rfl, hread⟩ := missing?_fetch_eq_some_iff.mp hfetch
    exact ⟨hlocate, hread⟩
  · rintro ⟨hlocate, hread⟩
    refine ⟨cell, hlocate, ?_⟩
    rw [missing?_context]
    exact missing?_fetch_eq_some_iff.mpr ⟨rfl, hread⟩

theorem missing?_resolve_binary_iff {operator : Operator} {lhs rhs : Reference} :
    missing? ((binary operator lhs rhs).resolve machine).result = some cell ↔
      missing? (lhs.resolve machine).result = some cell ∨
        (∃ left, (lhs.resolve machine).result = .ok left) ∧
          missing? (rhs.resolve machine).result = some cell := by
  simp only [result_resolve_binary, missing?_bind_eq_some_iff, missing?_context, missing?_apply,
    mapError_eq_ok_iff, reduceCtorEq, and_false, exists_false, or_false, exists_and_right]

-- A cell is reported missing only if it is: its segment is there, and no value.
theorem read_of_missing (machine : Machine) (cell : Address) (reference : Reference) :
    (missing? (reference.locate machine).result = some cell →
        machine.memory.read cell = .error (.uninitialized cell)) ∧
      (missing? (reference.resolve machine).result = some cell →
        machine.memory.read cell = .error (.uninitialized cell)) := by
  induction reference with
  | cell c =>
      refine ⟨?_, nofun⟩
      intro h
      simp at h
  | deref inner ih =>
      refine ⟨ih.1, ?_⟩
      intro h
      rcases missing?_resolve_deref_iff.mp h with hlocate | ⟨-, hread⟩
      · exact ih.1 hlocate
      · exact hread
  | doubleDeref inner offset ih =>
      have hlocate : missing? ((doubleDeref inner offset).locate machine).result = some cell →
          machine.memory.read cell = .error (.uninitialized cell) := by
        intro h
        have hpointer := missing?_locate_doubleDeref_iff.mp h
        rcases missing?_resolve_deref_iff.mp hpointer with hinner | ⟨-, hread⟩
        · exact ih.1 hinner
        · exact hread
      refine ⟨hlocate, ?_⟩
      intro h
      rcases missing?_resolve_doubleDeref_iff.mp h with h | ⟨-, hread⟩
      · exact hlocate h
      · exact hread
  | immediate number => exact ⟨nofun, nofun⟩
  | binary operator lhs rhs ihl ihr =>
      refine ⟨nofun, ?_⟩
      intro h
      rcases missing?_resolve_binary_iff.mp h with hleft | ⟨-, hright⟩
      · exact ihl.2 hleft
      · exact ihr.2 hright

end Reference

end SymbolicOperand
