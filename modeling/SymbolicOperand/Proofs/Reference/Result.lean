import SymbolicOperand.Reference.Resolve
import SymbolicOperand.Proofs.Value.Displacement

namespace SymbolicOperand

section MapError

variable {ε δ α : Type} (wrap : ε → δ)

@[simp]
theorem mapError_ok (value : α) : (Except.ok value).mapError wrap = .ok value := rfl

@[simp]
theorem mapError_error (error : ε) :
    (Except.error error : Except ε α).mapError wrap = .error (wrap error) := rfl

theorem mapError_eq_ok_iff {wrap : ε → δ} {outcome : Except ε α} {value : α} :
    outcome.mapError wrap = .ok value ↔ outcome = .ok value := by
  cases outcome with
  | ok found => simp
  | error error => simp

end MapError

-- All that the steps without a read can fail with.
theorem Cell.locate_error_cases {cell : Cell} {registers : Registers} {error : ResolveError}
    (herror : cell.locate registers = .error error) :
    error = .offsetOverflow (registers.get cell.base) cell.offset := by
  unfold locate at herror
  split at herror
  · cases herror
  · exact (Except.error.inj herror).symm

theorem Value.target_error_cases {pointer : Value} {offset : Int16} {error : ResolveError}
    (herror : pointer.target offset = .error error) :
    (∃ base, pointer = .address base ∧ error = .offsetOverflow base.offset offset) ∨
      ∃ number, pointer = .felt number ∧ error = .typeMismatch "address" "field element" := by
  cases pointer with
  | address base =>
      simp only [target] at herror
      split at herror
      · cases herror
      · exact .inl ⟨base, rfl, (Except.error.inj herror).symm⟩
  | felt number => exact .inr ⟨number, rfl, (Except.error.inj herror).symm⟩

theorem Operator.apply_error_cases {operator : Operator} {lhs rhs : Value} {error : ResolveError}
    (herror : operator.apply lhs rhs = .error error) :
    error = .memory (.illTyped operator.symbol lhs rhs) ∨
      (∃ base delta, error = .memory (.pointerOverflow base delta)) ∨
      operator = .sub ∧ error = .unknownOperator operator.symbol := by
  have hdisplace {base : Address} {delta : Felt}
      (h : ((base.displace delta).map Value.address).mapError .memory = .error error) :
      error = .memory (.pointerOverflow base delta) := by
    rcases base.displace_cases delta with ⟨target, hok⟩ | hoverflow
    · rw [hok] at h
      cases h
    · rw [hoverflow] at h
      cases h
      rfl
  cases operator with
  | add =>
      cases lhs with
      | address base =>
          cases rhs with
          | address other =>
              cases herror
              exact .inl rfl
          | felt delta => exact .inr (.inl ⟨base, delta, hdisplace herror⟩)
      | felt delta =>
          cases rhs with
          | address base => exact .inr (.inl ⟨base, delta, hdisplace herror⟩)
          | felt number => cases herror
  | mul =>
      cases lhs with
      | address base =>
          cases herror
          exact .inl rfl
      | felt number =>
          cases rhs with
          | address base =>
              cases herror
              exact .inl rfl
          | felt other => cases herror
  | sub =>
      cases herror
      exact .inr (.inr ⟨rfl, rfl⟩)

variable (machine : Machine)

namespace Machine

@[simp]
theorem result_fetch (cell : Address) :
    (machine.fetch cell).result = (machine.memory.read cell).mapError .memory := by
  unfold fetch
  cases machine.memory.read cell with
  | ok value => rfl
  | error cause => rfl

@[simp]
theorem result_load (located : Attempt Address) :
    (machine.load located).result =
      located.result.mapError (.context "get cell address") >>= fun cell =>
        (machine.fetch cell).result := by
  rw [load, Attempt.result_bind, Attempt.result_during]

@[simp]
theorem result_follow (located : Attempt Address) (offset : Int16) :
    (machine.follow located offset).result =
      (machine.load located).result.mapError (.context "get lhs address") >>= fun pointer =>
        pointer.target offset := by
  rw [follow, Attempt.result_bind, Attempt.result_during]
  rfl

end Machine

namespace Reference

-- The events of a call come on top of its result. Without them each call is an
-- equation between the results of the calls below it.
@[simp]
theorem result_locate_cell (c : Cell) :
    ((cell c).locate machine).result = c.locate machine.registers := rfl

@[simp]
theorem result_locate_deref (inner : Reference) :
    ((deref inner).locate machine).result = (inner.locate machine).result := rfl

-- The pointer is read through the indirection that the constructor leaves implicit.
@[simp]
theorem result_locate_doubleDeref (inner : Reference) (offset : Int16) :
    ((doubleDeref inner offset).locate machine).result =
      ((deref inner).resolve machine).result.mapError (.context "get lhs address") >>=
        fun pointer => pointer.target offset :=
  machine.result_follow (inner.locate machine) offset

@[simp]
theorem result_locate_immediate (number : Felt) :
    ((immediate number).locate machine).result =
      .error (.notAddressable (immediate number).text) := rfl

@[simp]
theorem result_locate_binary (operator : Operator) (lhs rhs : Reference) :
    ((binary operator lhs rhs).locate machine).result =
      .error (.notAddressable (binary operator lhs rhs).text) := rfl

@[simp]
theorem result_resolve_cell (c : Cell) :
    ((cell c).resolve machine).result = .error (.unresolvable (cell c).text) := rfl

@[simp]
theorem result_resolve_deref (inner : Reference) :
    ((deref inner).resolve machine).result =
      (inner.locate machine).result.mapError (.context "get cell address") >>= fun cell =>
        (machine.fetch cell).result :=
  machine.result_load (inner.locate machine)

@[simp]
theorem result_resolve_doubleDeref (inner : Reference) (offset : Int16) :
    ((doubleDeref inner offset).resolve machine).result =
      ((doubleDeref inner offset).locate machine).result >>= fun cell =>
        (machine.fetch cell).result.mapError (.context s!"read result at {cell}") := by
  unfold resolve
  simp only [Attempt.result_bind, Attempt.result_emit, Attempt.result_during]
  rfl

@[simp]
theorem result_resolve_immediate (number : Felt) :
    ((immediate number).resolve machine).result = .ok (.felt number) := rfl

@[simp]
theorem result_resolve_binary (operator : Operator) (lhs rhs : Reference) :
    ((binary operator lhs rhs).resolve machine).result =
      (lhs.resolve machine).result.mapError (.context s!"resolve lhs operand {lhs}") >>= fun left =>
        (rhs.resolve machine).result.mapError (.context s!"resolve rhs operand {rhs}") >>=
          fun right => operator.apply left right := by
  rw [resolve]
  simp only [Attempt.result_bind, Attempt.result_emit, Attempt.result_during,
    Attempt.result_ofExcept]
  rfl

variable {machine}

theorem resolve_deref_of_read {inner : Reference} {target : Address} {value : Value}
    (hlocate : (inner.locate machine).result = .ok target)
    (hread : machine.memory.read target = .ok value) :
    ((deref inner).resolve machine).result = .ok value := by
  rw [result_resolve_deref, hlocate]
  show (machine.fetch target).result = _
  rw [Machine.result_fetch, hread, mapError_ok]

theorem resolve_doubleDeref_of_read {inner : Reference} {offset : Int16} {target : Address}
    {value : Value} (hlocate : ((doubleDeref inner offset).locate machine).result = .ok target)
    (hread : machine.memory.read target = .ok value) :
    ((doubleDeref inner offset).resolve machine).result = .ok value := by
  rw [result_resolve_doubleDeref, hlocate]
  show ((machine.fetch target).result.mapError _ : Except ResolveError Value) = _
  rw [Machine.result_fetch, hread, mapError_ok, mapError_ok]

end Reference

end SymbolicOperand
