import SymbolicOperand.Proofs.Reference.Success
import SymbolicOperand.Proofs.Value.Displacement

namespace SymbolicOperand

-- A displacement as a signed number and as a field element reaches the same cells.
theorem Address.displace_ofInt_eq_ok_iff_shift? {base target : Address} {offset : Int16} :
    base.displace (Felt.ofInt offset.toInt) = .ok target ↔ base.shift? offset = some target := by
  have hmodulus : 65536 < Felt.modulus := by decide
  have hlo := offset.le_toInt
  have hhi := offset.toInt_lt
  rw [displace_ofInt_eq_ok_iff (by omega) (by omega), shift?_eq_some_iff]

namespace Reference

-- The pointer at `inner` plus a constant, as a sum.
def pointerSum (inner : Reference) (offset : Int16) : Reference :=
  binary .add (deref inner) (immediate (Felt.ofInt offset.toInt))

-- The pointer, the cell that a double indirection is at, and the value of the sum. These
-- are all the ways in which the three can come out together.
inductive Displaced (offset : Int16) : Except ResolveError Value → Except ResolveError Address →
    Except ResolveError Value → Prop where
  | failed {error first second : ResolveError} (hfirst : first.root = error.root)
      (hsecond : second.root = error.root) :
      Displaced offset (.error error) (.error first) (.error second)
  | felt (number : Felt) :
      Displaced offset (.ok (.felt number)) (.error (.typeMismatch "address" "field element"))
        (.ok (.felt (number + Felt.ofInt offset.toInt)))
  | reached {base target : Address} (htarget : base.shift? offset = some target) :
      Displaced offset (.ok (.address base)) (.ok target) (.ok (.address target))
  | overflow (base : Address) :
      Displaced offset (.ok (.address base)) (.error (.offsetOverflow base.offset offset))
        (.error (.memory (.pointerOverflow base (Felt.ofInt offset.toInt))))

theorem displaced_address (base : Address) (offset : Int16) :
    Displaced offset (.ok (.address base)) ((Value.address base).target offset)
      (Operator.add.apply (.address base) (.felt (Felt.ofInt offset.toInt))) := by
  simp only [Value.target, Operator.apply, Value.add]
  cases hshift : base.shift? offset with
  | some target =>
      rw [Address.displace_ofInt_eq_ok_iff_shift?.mpr hshift]
      exact .reached hshift
  | none =>
      rcases base.displace_cases (Felt.ofInt offset.toInt) with ⟨target, hok⟩ | herror
      · rw [Address.displace_ofInt_eq_ok_iff_shift?, hshift] at hok
        cases hok
      · rw [herror]
        exact .overflow base

theorem displaced (machine : Machine) (inner : Reference) (offset : Int16) :
    Displaced offset ((deref inner).resolve machine).result
      ((doubleDeref inner offset).locate machine).result
      ((pointerSum inner offset).resolve machine).result := by
  rw [result_locate_doubleDeref, pointerSum, result_resolve_binary, result_resolve_immediate]
  cases ((deref inner).resolve machine).result with
  | error error => exact .failed rfl rfl
  | ok pointer =>
      cases pointer with
      | felt number => exact .felt number
      | address base => exact displaced_address base offset

namespace Displaced

variable {offset : Int16} {pointer sum : Except ResolveError Value}
  {located : Except ResolveError Address}

theorem ok_iff (h : Displaced offset pointer located sum) (target : Address) :
    located = .ok target ↔ sum = .ok (.address target) := by
  cases h <;> simp

theorem of_error (h : Displaced offset pointer located sum) {error : ResolveError}
    (herror : pointer = .error error) :
    ∃ first second, located = .error first ∧ sum = .error second ∧
      first.root = error.root ∧ second.root = error.root := by
  cases h with
  | failed hfirst hsecond =>
      cases herror
      exact ⟨_, _, rfl, rfl, hfirst, hsecond⟩
  | _ => cases herror

theorem of_felt (h : Displaced offset pointer located sum) {number : Felt}
    (hnumber : pointer = .ok (.felt number)) :
    located = .error (.typeMismatch "address" "field element") ∧
      sum = .ok (.felt (number + Felt.ofInt offset.toInt)) := by
  cases h with
  | felt =>
      cases hnumber
      exact ⟨rfl, rfl⟩
  | _ => cases hnumber

theorem of_address (h : Displaced offset pointer located sum) {base : Address}
    (hbase : pointer = .ok (.address base)) :
    (∃ target, located = .ok target ∧ sum = .ok (.address target)) ∨
      located = .error (.offsetOverflow base.offset offset) ∧
        sum = .error (.memory (.pointerOverflow base (Felt.ofInt offset.toInt))) := by
  cases h with
  | reached =>
      exact .inl ⟨_, rfl, rfl⟩
  | overflow =>
      cases hbase
      exact .inr ⟨rfl, rfl⟩
  | _ => cases hbase

end Displaced

-- The two forms of a pointer plus a constant are at the same cell, fail for the same
-- reason where the pointer does, and leave the offsets of a segment together. They part
-- where the pointer is a number: only the sum has a value then.
theorem doubleDeref_agrees_pointerSum (machine : Machine) (inner : Reference) (offset : Int16) :
    (∀ target, ((doubleDeref inner offset).locate machine).result = .ok target ↔
        ((pointerSum inner offset).resolve machine).result = .ok (.address target)) ∧
      (∀ error, ((deref inner).resolve machine).result = .error error →
        ∃ first second, ((doubleDeref inner offset).locate machine).result = .error first ∧
          ((pointerSum inner offset).resolve machine).result = .error second ∧
            first.root = error.root ∧ second.root = error.root) ∧
      (∀ number, ((deref inner).resolve machine).result = .ok (.felt number) →
        ((doubleDeref inner offset).locate machine).result =
            .error (.typeMismatch "address" "field element") ∧
          ((pointerSum inner offset).resolve machine).result =
            .ok (.felt (number + Felt.ofInt offset.toInt))) ∧
      (∀ base, ((deref inner).resolve machine).result = .ok (.address base) →
        (∃ target, ((doubleDeref inner offset).locate machine).result = .ok target ∧
            ((pointerSum inner offset).resolve machine).result = .ok (.address target)) ∨
          ((doubleDeref inner offset).locate machine).result =
              .error (.offsetOverflow base.offset offset) ∧
            ((pointerSum inner offset).resolve machine).result =
              .error (.memory (.pointerOverflow base (Felt.ofInt offset.toInt)))) ∧
      ∀ value, ((doubleDeref inner offset).resolve machine).result = .ok value ↔
        ∃ target, ((doubleDeref inner offset).locate machine).result = .ok target ∧
          machine.memory.read target = .ok value := by
  have h := displaced machine inner offset
  exact ⟨h.ok_iff, fun _ => h.of_error, fun _ => h.of_felt, fun _ => h.of_address,
    fun _ => resolve_doubleDeref_eq_ok_iff⟩

-- A pointer at the last offset of a segment.
theorem doubleDeref_agrees_pointerSum_last :
    let last : Address := { segment := 2, offset := 18446744073709551615 }
    let machine : Machine := { Machine.start (Registers.start 0) with
      memory := { segments := #[{}, { cells := #[some (.address last)] }] } }
    let inner := cell { base := .fp, offset := 0 }
    ((deref inner).resolve machine).result = .ok (.address last) ∧
      ((doubleDeref inner 1).locate machine).result = .error (.offsetOverflow last.offset 1) ∧
      ((pointerSum inner 1).resolve machine).result =
        .error (.memory (.pointerOverflow last (Felt.ofInt 1))) := by
  intro last machine inner
  have hpointer : ((deref inner).resolve machine).result = .ok (.address last) := rfl
  refine ⟨hpointer, ?_⟩
  obtain ⟨-, -, -, haddress, -⟩ := doubleDeref_agrees_pointerSum machine inner 1
  rcases haddress last hpointer with ⟨target, hlocated, -⟩ | hoverflow
  · have hfails : ((doubleDeref inner 1).locate machine).result =
        .error (.offsetOverflow last.offset 1) := rfl
    rw [hfails] at hlocated
    cases hlocated
  · exact hoverflow

end Reference

end SymbolicOperand
