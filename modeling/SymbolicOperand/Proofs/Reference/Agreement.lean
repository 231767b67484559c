import SymbolicOperand.Proofs.Reference.Simulation

namespace SymbolicOperand

namespace ResolveError

-- Root causes of one kind. Two memory errors must be the very same.
def SameKind : ResolveError → ResolveError → Prop
  | offsetOverflow .., offsetOverflow .. => True
  | unresolvable _, unresolvable _ => True
  | notAddressable _, notAddressable _ => True
  | typeMismatch .., typeMismatch .. => True
  | unknownOperator _, unknownOperator _ => True
  | memory first, memory second => first = second
  | _, _ => False

theorem sameKind_root (error : ResolveError) : error.root.SameKind error.root := by
  induction error with
  | context step source ih => exact ih
  | memory cause => exact rfl
  | _ => exact trivial

theorem SameKind.severity_eq {first second : ResolveError} (h : first.root.SameKind second.root) :
    first.severity = second.severity := by
  unfold severity
  unfold SameKind at h
  split at h <;> simp_all

end ResolveError

-- Two outcomes a caller cannot tell apart, but for the texts in an error.
inductive Agree {α : Type} : Except ResolveError α → Except ResolveError α → Prop where
  | ok (value : α) : Agree (.ok value) (.ok value)
  | error {first second : ResolveError} (hroot : first.root.SameKind second.root)
      (hseverity : first.severity = second.severity) : Agree (.error first) (.error second)

theorem Related.agree {α : Type} {first second : Except ResolveError α}
    (h : Related Eq ResolveError.SameKind first second) : Agree first second := by
  cases h with
  | ok h => exact h ▸ .ok _
  | error h => exact .error h h.severity_eq

-- Equal memories answer alike, whatever the registers are.
theorem simulation_of_memory_eq {change : Cell → Cell} {first second : Machine}
    (hmemory : first.memory = second.memory) :
    Simulation change first second Eq Eq ResolveError.SameKind where
  fetch a _ := by
    rintro rfl
    rw [Machine.result_fetch, Machine.result_fetch, hmemory]
    exact .refl (fun _ => rfl) ResolveError.sameKind_root _
  target offset v _ := by
    rintro rfl
    exact .refl (fun _ => rfl) ResolveError.sameKind_root _
  apply operator v _ := by
    rintro rfl v' _ rfl
    exact .refl (fun _ => rfl) ResolveError.sameKind_root _
  felt _ := rfl
  unresolvable _ := trivial
  notAddressable _ := trivial

end SymbolicOperand
