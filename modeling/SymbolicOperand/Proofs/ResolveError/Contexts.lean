import Mathlib.Data.List.Induction
import SymbolicOperand.ResolveError

namespace SymbolicOperand.ResolveError

-- An error that wraps no other.
def IsCause (error : ResolveError) : Prop :=
  ∀ step source, error ≠ context step source

theorem IsCause.root_eq {cause : ResolveError} (h : cause.IsCause) : cause.root = cause := by
  cases cause with
  | context step source => exact absurd rfl (h step source)
  | _ => rfl

theorem IsCause.sources_eq_nil {cause : ResolveError} (h : cause.IsCause) : cause.sources = [] := by
  cases cause with
  | context step source => exact absurd rfl (h step source)
  | _ => rfl

theorem IsCause.severity_eq_recoverable_iff {cause : ResolveError} (h : cause.IsCause) :
    cause.severity = .recoverable ↔ ∃ cell, cause = memory (.uninitialized cell) := by
  rw [severity, h.root_eq]
  split
  · simp
  · next hother => simpa using hother

theorem message_context (step : String) (source : ResolveError) :
    (context step source).message = step ++ ": " ++ source.message := rfl

theorem message_wrap (error : ResolveError) (steps : List String) :
    (error.wrap steps).message = ": ".intercalate (steps.reverse ++ [error.message]) := by
  induction steps using List.reverseRecOn with
  | nil => simp [wrap]
  | append_singleton steps step ih =>
      rw [wrap_concat, message_context, ih, List.reverse_concat, List.cons_append,
        String.intercalate_cons_of_ne_nil (by simp)]

-- The last error to be reached is the root, however many contexts are passed on the way.
theorem getLast?_sources_getD (error : ResolveError) :
    error.sources.getLast?.getD error = error.root := by
  induction error with
  | context step source ih =>
      rw [sources, root, List.getLast?_cons]
      exact ih
  | _ => rfl

theorem getLast?_sources {error : ResolveError} (h : error.sources ≠ []) :
    error.sources.getLast? = some error.root := by
  rw [← getLast?_sources_getD, List.getLast?_eq_some_getLast h, Option.getD_some]

theorem length_sources_wrap (error : ResolveError) (steps : List String) :
    (error.wrap steps).sources.length = steps.length + error.sources.length := by
  induction steps using List.reverseRecOn with
  | nil => simp [wrap]
  | append_singleton steps step ih =>
      rw [wrap_concat, sources, List.length_cons, ih, List.length_append, List.length_singleton]
      omega

-- Each step down the chain takes off the context that was put on last.
theorem sources_wrap_getElem? (error : ResolveError) {steps : List String} {index : Nat}
    (h : index < steps.length) :
    (error.wrap steps).sources[index]? =
      some (error.wrap (steps.take (steps.length - (index + 1)))) := by
  induction steps using List.reverseRecOn generalizing index with
  | nil => cases h
  | append_singleton steps step ih =>
      rw [wrap_concat, sources]
      cases index with
      | zero => simp
      | succ index =>
          rw [List.length_append, List.length_singleton] at h ⊢
          rw [List.getElem?_cons_succ, ih (by omega), List.take_append_of_le_length (by omega)]
          congr 3
          omega

-- Contexts show in the text and hide nothing. The text reads them from the outside in, the
-- root and the severity are those of the cause, and the way down meets one error for each
-- context, the last of them the cause.
theorem contexts_transparent {cause : ResolveError} (hcause : cause.IsCause)
    (steps : List String) :
    (cause.wrap steps).message = ": ".intercalate (steps.reverse ++ [cause.message]) ∧
      (cause.wrap steps).root = cause ∧
      (cause.wrap steps).severity = cause.severity ∧
      (cause.severity = .recoverable ↔ ∃ cell, cause = memory (.uninitialized cell)) ∧
      (cause.wrap steps).sources.length = steps.length ∧
      (∀ place, 1 ≤ place → place ≤ steps.length →
        (cause.wrap steps).sources[place - 1]? =
          some (cause.wrap (steps.take (steps.length - place)))) ∧
      (steps ≠ [] → (cause.wrap steps).sources.getLast? = some cause) := by
  have hroot : (cause.wrap steps).root = cause := by
    rw [root_wrap, hcause.root_eq]
  have hlength : (cause.wrap steps).sources.length = steps.length := by
    rw [length_sources_wrap, hcause.sources_eq_nil, List.length_nil, Nat.add_zero]
  refine ⟨message_wrap cause steps, hroot, severity_wrap cause steps,
    hcause.severity_eq_recoverable_iff, hlength, ?_, ?_⟩
  · intro place hfirst hlast
    rw [sources_wrap_getElem? cause (by omega), Nat.sub_add_cancel hfirst]
  · intro hsteps
    have hne : (cause.wrap steps).sources ≠ [] := by
      rwa [← List.length_pos_iff, hlength, List.length_pos_iff]
    rw [getLast?_sources hne, hroot]

-- The text does not show where an empty context ends, or one that holds the separator. The
-- way down does.
theorem contexts_transparent_separator :
    let cause := memory (.uninitialized { segment := 1, offset := 4 })
    let error := cause.wrap ["", "a: b", "read result at 1:4"]
    cause.IsCause ∧
      error.message = ": ".intercalate ["read result at 1:4", "a: b", "", cause.message] ∧
      error.root = cause ∧ error.severity = .recoverable ∧ error.sources.length = 3 ∧
      error.sources[0]? = some (cause.wrap ["", "a: b"]) ∧
      error.sources.getLast? = some cause := by
  intro cause error
  have hcause : cause.IsCause := nofun
  obtain ⟨hmessage, hroot, hseverity, hrecoverable, hlength, hplaces, hlast⟩ :=
    contexts_transparent hcause ["", "a: b", "read result at 1:4"]
  exact ⟨hcause, hmessage, hroot, hseverity.trans (hrecoverable.mpr ⟨_, rfl⟩), hlength,
    hplaces 1 (by decide) (by decide), hlast (by decide)⟩

end SymbolicOperand.ResolveError
