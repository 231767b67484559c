import Mathlib.Logic.Function.Iterate
import SymbolicOperand.Proofs.Reference.Agreement

namespace SymbolicOperand.Reference

-- What stands below the indirections that a reference begins with.
def core : Reference → Reference
  | deref inner => inner.core
  | reference => reference

-- Every run of indirections made one. The first of a run may be the one that a double
-- indirection leaves implicit.
def collapse : Reference → Reference
  | cell c => cell c
  | deref inner => deref inner.collapse.core
  | doubleDeref inner offset => doubleDeref inner.collapse.core offset
  | immediate number => immediate number
  | binary operator lhs rhs => binary operator lhs.collapse rhs.collapse

-- No indirection stands directly below another.
def IsFlat : Reference → Prop
  | cell _ | immediate _ => True
  | deref inner | doubleDeref inner _ => (∀ below, inner ≠ deref below) ∧ inner.IsFlat
  | binary _ lhs rhs => lhs.IsFlat ∧ rhs.IsFlat

theorem core_ne_deref (reference below : Reference) : reference.core ≠ deref below := by
  induction reference with
  | deref inner ih => exact ih
  | _ => exact nofun

theorem IsFlat.core {reference : Reference} (h : reference.IsFlat) : reference.core.IsFlat := by
  induction reference with
  | deref inner ih => exact ih h.2
  | _ => exact h

theorem isFlat_collapse (reference : Reference) : reference.collapse.IsFlat := by
  induction reference with
  | cell c => exact trivial
  | deref inner ih => exact ⟨core_ne_deref _, ih.core⟩
  | doubleDeref inner offset ih => exact ⟨core_ne_deref _, ih.core⟩
  | immediate number => exact trivial
  | binary operator lhs rhs ihl ihr => exact ⟨ihl, ihr⟩

theorem core_core (reference : Reference) : reference.core.core = reference.core := by
  induction reference with
  | deref inner ih => exact ih
  | _ => rfl

-- The length of a run leaves no mark.
theorem core_collapse_deref_iterate (reference : Reference) (n : Nat) :
    (deref^[n] reference).collapse.core = reference.collapse.core := by
  induction n with
  | zero => rfl
  | succ n ih =>
      rw [Function.iterate_succ_apply']
      exact (core_core _).trans ih

theorem core_collapse_of_ne_deref {reference : Reference} (h : ∀ below, reference ≠ deref below) :
    reference.collapse.core = reference.collapse := by
  cases reference with
  | deref inner => exact absurd rfl (h inner)
  | _ => rfl

-- A run of indirections, and one that goes on from a double indirection.
theorem collapse_run {reference : Reference} (h : ∀ below, reference ≠ deref below) (n : Nat)
    (offset : Int16) :
    (deref^[n + 1] reference).collapse = deref reference.collapse ∧
      (doubleDeref (deref^[n] reference) offset).collapse =
        doubleDeref reference.collapse offset := by
  have hcore := (core_collapse_deref_iterate reference n).trans (core_collapse_of_ne_deref h)
  rw [Function.iterate_succ_apply', collapse, collapse, hcore]
  exact ⟨rfl, rfl⟩

variable (machine : Machine)

-- An indirection is located where its inner reference is.
theorem result_locate_core (reference : Reference) :
    (reference.core.locate machine).result = (reference.locate machine).result := by
  induction reference with
  | deref inner ih => exact ih
  | _ => rfl

theorem result_locate_deref_iterate (reference : Reference) (n : Nat) :
    ((deref^[n] reference).locate machine).result = (reference.locate machine).result := by
  induction n with
  | zero => rfl
  | succ n ih =>
      rw [Function.iterate_succ_apply', result_locate_deref, ih]

theorem related_collapse (reference : Reference) :
    Related Eq ResolveError.SameKind (reference.collapse.locate machine).result
        (reference.locate machine).result ∧
      Related Eq ResolveError.SameKind (reference.collapse.resolve machine).result
        (reference.resolve machine).result := by
  have hmachine : Simulation id machine machine Eq Eq ResolveError.SameKind :=
    simulation_of_memory_eq rfl
  induction reference with
  | cell c => exact ⟨.refl (fun _ => rfl) ResolveError.sameKind_root _, .error trivial⟩
  | deref inner ih =>
      have hcore := ih.1
      rw [← result_locate_core] at hcore
      exact ⟨hcore, hmachine.resolve_deref hcore⟩
  | doubleDeref inner offset ih =>
      have hcore := ih.1
      rw [← result_locate_core] at hcore
      exact ⟨hmachine.locate_doubleDeref hcore offset, hmachine.resolve_doubleDeref hcore offset⟩
  | immediate number => exact ⟨.error trivial, .ok rfl⟩
  | binary operator lhs rhs ihl ihr =>
      exact ⟨.error trivial, hmachine.resolve_binary operator ihl.2 ihr.2⟩

theorem result_resolve_deref_iterate (reference : Reference) (n : Nat) :
    ((deref^[n + 1] reference).resolve machine).result =
      ((deref reference).resolve machine).result := by
  rw [Function.iterate_succ_apply', result_resolve_deref, result_resolve_deref,
    result_locate_deref_iterate]

-- Runs of indirections can be made one: every machine finds what it found before, or fails
-- for the same reason. A run by itself even fails in the same contexts.
theorem collapse_agrees (reference : Reference) :
    Agree (reference.collapse.locate machine).result (reference.locate machine).result ∧
      Agree (reference.collapse.resolve machine).result (reference.resolve machine).result ∧
      (∀ n, ((deref^[n + 1] reference).resolve machine).result =
        ((deref reference).resolve machine).result) ∧
      reference.collapse.IsFlat ∧
      ((∀ below, reference ≠ deref below) → ∀ n offset,
        (deref^[n + 1] reference).collapse = deref reference.collapse ∧
          (doubleDeref (deref^[n] reference) offset).collapse =
            doubleDeref reference.collapse offset) := by
  obtain ⟨hlocate, hresolve⟩ := related_collapse machine reference
  exact ⟨hlocate.agree, hresolve.agree, result_resolve_deref_iterate machine reference,
    reference.isFlat_collapse, collapse_run⟩

-- Three indirections over a cell that was never written.
theorem collapse_agrees_unwritten :
    let machine := Machine.start (Registers.start 7)
    let inner := cell { base := .fp, offset := -1 }
    let missing : ResolveError := .memory (.uninitialized { segment := 1, offset := 6 })
    (∀ below, inner ≠ deref below) ∧
      (deref (deref (deref inner))).collapse = deref inner ∧
      (doubleDeref (deref (deref inner)) 4).collapse = doubleDeref inner 4 ∧
      ((deref (deref (deref inner))).resolve machine).result = .error missing := by
  intro machine inner missing
  have hinner : ∀ below, inner ≠ deref below := nofun
  obtain ⟨-, -, hresolve, -, hruns⟩ := collapse_agrees machine inner
  obtain ⟨hrun, hdouble⟩ := hruns hinner 2 4
  exact ⟨hinner, hrun, hdouble, (hresolve 2).trans rfl⟩

end SymbolicOperand.Reference
