import SymbolicOperand.Proofs.Machine.Growth
import SymbolicOperand.Proofs.Reference.Result

namespace SymbolicOperand

namespace Machine

variable {α β : Type} {before after : Machine}

-- An outcome repeats on a grown machine, unless it was a read that the grown
-- machine answers in another way.
def Repeats (before after : Machine) (first second : Except ResolveError α) : Prop :=
  second = first ∨
    ∃ error cell cause, first = .error error ∧ error.root = .memory cause ∧
      before.memory.read cell = .error cause ∧ after.memory.read cell ≠ .error cause

theorem Repeats.context {first second : Except ResolveError α} (h : Repeats before after first second)
    (step : String) :
    Repeats before after (first.mapError (.context step)) (second.mapError (.context step)) := by
  rcases h with rfl | ⟨error, cell, cause, rfl, hroot, hbefore, hafter⟩
  · exact .inl rfl
  · exact .inr ⟨.context step error, cell, cause, rfl, hroot, hbefore, hafter⟩

theorem Repeats.bind {first second : Except ResolveError α} {next later : α → Except ResolveError β}
    (h : Repeats before after first second)
    (hnext : ∀ value, Repeats before after (next value) (later value)) :
    Repeats before after (first >>= next) (second >>= later) := by
  rcases h with rfl | ⟨error, cell, cause, rfl, hroot, hbefore, hafter⟩
  · cases second with
    | error error => exact .inl rfl
    | ok value => exact hnext value
  · exact .inr ⟨error, cell, cause, rfl, hroot, hbefore, hafter⟩

theorem repeats_fetch (hgrows : before.Grows after) (cell : Address) :
    Repeats before after (before.fetch cell).result (after.fetch cell).result := by
  rw [result_fetch, result_fetch]
  cases hbefore : before.memory.read cell with
  | ok value => exact .inl (by rw [hgrows.read hbefore])
  | error cause =>
      by_cases hafter : after.memory.read cell = .error cause
      · exact .inl (by rw [hafter])
      · exact .inr ⟨.memory cause, cell, cause, rfl, rfl, hbefore, hafter⟩

theorem repeats_resolve_deref (hgrows : before.Grows after) {inner : Reference}
    (h : Repeats before after (inner.locate before).result (inner.locate after).result) :
    Repeats before after ((Reference.deref inner).resolve before).result
      ((Reference.deref inner).resolve after).result := by
  rw [Reference.result_resolve_deref, Reference.result_resolve_deref]
  exact (h.context _).bind (repeats_fetch hgrows)

-- Every read on the way to a value keeps its answer, so the first read that
-- failed is reached again, and by the same steps.
theorem repeats_reference (hgrows : before.Grows after) (reference : Reference) :
    Repeats before after (reference.locate before).result (reference.locate after).result ∧
      Repeats before after (reference.resolve before).result (reference.resolve after).result := by
  induction reference with
  | cell c =>
      refine ⟨.inl ?_, .inl rfl⟩
      simp only [Reference.result_locate_cell, Cell.locate, hgrows.registers]
  | deref inner ih => exact ⟨ih.1, repeats_resolve_deref hgrows ih.1⟩
  | doubleDeref inner offset ih =>
      have hpointer := repeats_resolve_deref hgrows ih.1
      have hlocate : Repeats before after ((Reference.doubleDeref inner offset).locate before).result
          ((Reference.doubleDeref inner offset).locate after).result := by
        rw [Reference.result_locate_doubleDeref, Reference.result_locate_doubleDeref]
        exact (hpointer.context _).bind fun _ => .inl rfl
      refine ⟨hlocate, ?_⟩
      rw [Reference.result_resolve_doubleDeref, Reference.result_resolve_doubleDeref]
      exact hlocate.bind fun cell => (repeats_fetch hgrows cell).context _
  | immediate number => exact ⟨.inl rfl, .inl rfl⟩
  | binary operator lhs rhs ihl ihr =>
      refine ⟨.inl rfl, ?_⟩
      rw [Reference.result_resolve_binary, Reference.result_resolve_binary]
      exact (ihl.2.context _).bind fun left => (ihr.2.context _).bind fun right => .inl rfl

theorem Repeats.ok {first second : Except ResolveError α} (h : Repeats before after first second)
    {value : α} (hfirst : first = .ok value) : second = .ok value := by
  rcases h with rfl | ⟨error, cell, cause, rfl, -⟩
  · exact hfirst
  · cases hfirst

theorem Repeats.error {first second : Except ResolveError α} (h : Repeats before after first second)
    {error : ResolveError} (hfirst : first = .error error)
    (hreads : ∀ cell cause, error.root = .memory cause → before.memory.read cell = .error cause →
      after.memory.read cell = .error cause) : second = .error error := by
  rcases h with rfl | ⟨_, cell, cause, rfl, hroot, hbefore, hafter⟩
  · exact hfirst
  · cases hfirst
    exact absurd (hreads cell cause hroot hbefore) hafter

-- What is left of an outcome after some calls, by the kind of the outcome.
structure Persists (ops : List Op) (first second : Except ResolveError α) : Prop where
  ok : ∀ value, first = .ok value → second = .ok value
  error : ∀ error, first = .error error →
    (∀ cell, error.root ≠ .memory (.uninitialized cell)) →
    (∀ segment, error.root ≠ .memory (.unknownSegment segment)) → second = .error error
  unknownSegment : .allocate ∉ ops → ∀ error segment, first = .error error →
    error.root = .memory (.unknownSegment segment) → second = .error error
  fatal : .allocate ∉ ops → ∀ error, first = .error error → error.severity = .fatal →
    second = .error error

theorem Repeats.persists {machine : Machine} {ops : List Op} {first second : Except ResolveError α}
    (h : Repeats machine (machine.run ops) first second) : Persists ops first second := by
  -- without an allocation only an empty cell is read otherwise
  have hunknown (hops : .allocate ∉ ops) {error : ResolveError} (hfirst : first = .error error)
      (hroot : ∀ cell, error.root ≠ .memory (.uninitialized cell)) : second = .error error := by
    apply h.error hfirst
    intro cell cause hcause hread
    rcases machine.memory.read_error_cases hread with ⟨hle, rfl⟩ | rfl
    · rw [← machine.segmentCount_run ops hops] at hle
      rcases (machine.run ops).memory.read_cases cell with ⟨-, hread⟩ | ⟨hlt, -⟩
      · exact hread
      · exact absurd hle (Nat.not_le_of_lt hlt)
    · exact absurd hcause (hroot cell)
  refine ⟨fun value hfirst => h.ok hfirst, ?_, ?_, ?_⟩
  · intro error hfirst hempty hsegment
    apply h.error hfirst
    intro cell cause hcause hread
    rcases machine.memory.read_error_cases hread with ⟨-, rfl⟩ | rfl
    · exact absurd hcause (hsegment _)
    · exact absurd hcause (hempty _)
  · intro hops error segment hfirst hroot
    apply hunknown hops hfirst
    intro cell hcell
    simp [hroot] at hcell
  · intro hops error hfirst hfatal
    apply hunknown hops hfirst
    intro cell hcell
    simp [ResolveError.severity, hcell] at hfatal

-- Allocations and writes, the refused ones included, keep every address and every value.
-- Of the errors they mend only a missing cell, or a missing segment where one is allocated.
-- Offsets are not bounded, see `Segment.write`.
theorem persists_run (machine : Machine) (ops : List Op) (reference : Reference) :
    Persists ops (reference.locate machine).result (reference.locate (machine.run ops)).result ∧
      Persists ops (reference.resolve machine).result
        (reference.resolve (machine.run ops)).result := by
  obtain ⟨hlocate, hresolve⟩ := repeats_reference (machine.grows_run ops) reference
  exact ⟨hlocate.persists, hresolve.persists⟩

end Machine

end SymbolicOperand
