import SymbolicOperand.Proofs.Memory.Relocation
import SymbolicOperand.Proofs.Reference.Simulation

namespace SymbolicOperand

section Relocate

variable (move : UInt64 → UInt64)

def ResolveError.relocate : ResolveError → ResolveError
  | memory cause => memory (cause.relocate move)
  | context step source => context step source.relocate
  | cause => cause

theorem ResolveError.root_relocate (error : ResolveError) :
    (error.relocate move).root = error.root.relocate move := by
  induction error with
  | context step source ih => exact ih
  | _ => rfl

-- The outcome under another numbering: what was found is renumbered by `change`, and a
-- failure has the same cause about renumbered cells.
abbrev Relocated {α : Type} (change : α → α) : Except ResolveError α → Except ResolveError α → Prop :=
  Related (fun value moved => moved = change value)
    (fun cause other => other = cause.relocate move)

theorem relocated_of_eq {α : Type} {change : α → α} {outcome moved : Except ResolveError α}
    (h : moved = (outcome.map change).mapError (ResolveError.relocate move)) :
    Relocated move change outcome moved := by
  subst h
  cases outcome with
  | ok value => exact .ok rfl
  | error error => exact .error (error.root_relocate move)

-- An error of the memory is renumbered where it arises or where it is returned.
theorem mapError_memory_relocate {α : Type} (change : α → α) (outcome : Except MemoryError α) :
    ((outcome.map change).mapError (MemoryError.relocate move)).mapError .memory =
      ((outcome.mapError .memory).map change).mapError (ResolveError.relocate move) := by
  cases outcome with
  | ok value => rfl
  | error cause => rfl

theorem Value.target_relocate (pointer : Value) (offset : Int16) :
    (pointer.relocate move).target offset =
      ((pointer.target offset).map (Address.relocate move)).mapError
        (ResolveError.relocate move) := by
  cases pointer with
  | felt number => rfl
  | address base =>
      simp only [Value.relocate, target, Address.shift?_relocate]
      cases base.shift? offset with
      | none => rfl
      | some cell => rfl

theorem Operator.apply_relocate (operator : Operator) (lhs rhs : Value) :
    operator.apply (lhs.relocate move) (rhs.relocate move) =
      ((operator.apply lhs rhs).map (Value.relocate move)).mapError (ResolveError.relocate move) := by
  cases operator with
  | add => rw [apply, Value.add_relocate, mapError_memory_relocate, apply]
  | mul => rw [apply, Value.mul_relocate, mapError_memory_relocate, apply]
  | sub => rfl

end Relocate

section Renumbering

variable {first second : Machine} (renumbering : Renumbering first.memory.segmentCount)

theorem Cell.relocated_locate (cell : Cell)
    (hbase : second.registers.get cell.base = first.registers.get cell.base) :
    Relocated renumbering.perm (Address.relocate renumbering.perm)
      (cell.locate first.registers) (cell.locate second.registers) := by
  unfold Cell.locate
  rw [hbase]
  cases Word.shift? (first.registers.get cell.base) cell.offset with
  | none => exact .error rfl
  | some offset =>
      refine .ok ?_
      rw [Address.relocate, renumbering.execution]

theorem Memory.Relocates.simulation
    (h : first.memory.Relocates renumbering.perm second.memory) :
    Simulation id first second (fun cell moved => moved = cell.relocate renumbering.perm)
      (fun value moved => moved = value.relocate renumbering.perm)
      (fun cause other => other = cause.relocate renumbering.perm) where
  fetch cell _ := by
    rintro rfl
    apply relocated_of_eq
    rw [Machine.result_fetch, Machine.result_fetch, h.read, mapError_memory_relocate]
  target offset pointer _ := by
    rintro rfl
    exact relocated_of_eq _ (pointer.target_relocate _ offset)
  apply operator left _ := by
    rintro rfl right _ rfl
    exact relocated_of_eq _ (operator.apply_relocate _ left right)
  felt _ := rfl
  unresolvable reference := by
    rw [Reference.mapCells_id]
    rfl
  notAddressable reference := by
    rw [Reference.mapCells_id]
    rfl

-- Segment numbers are names: under another numbering of the allocated segments the same
-- references have a location and a value, the renumbered ones, and the others fail for the
-- renumbered cause.
theorem Reference.relocated_outcomes (hap : second.registers.ap = first.registers.ap)
    (hfp : second.registers.fp = first.registers.fp)
    (hmemory : first.memory.Relocates renumbering.perm second.memory) (reference : Reference) :
    Relocated renumbering.perm (Address.relocate renumbering.perm)
        (reference.locate first).result (reference.locate second).result ∧
      Relocated renumbering.perm (Value.relocate renumbering.perm)
        (reference.resolve first).result (reference.resolve second).result := by
  have hcells : ∀ c ∈ reference.cells, Relocated renumbering.perm
      (Address.relocate renumbering.perm) ((id c).locate first.registers)
        (c.locate second.registers) := by
    rintro ⟨base, offset⟩ -
    apply Cell.relocated_locate
    cases base with
    | ap => exact hap
    | fp => exact hfp
  have h := (hmemory.simulation renumbering).reference reference hcells
  rwa [mapCells_id] at h

-- Two segments exchange their numbers, and with them the pointer on the way and the result.
theorem Reference.relocated_outcomes_swap :
    let first : Machine := { Machine.start (Registers.start 0) with
      memory := { segments := #[{},
        { cells := #[some (.address { segment := 2, offset := 5 })] },
        { cells := .replicate 6 none ++ #[some (.address { segment := 3, offset := 1 })] }, {}] } }
    let renumbering : Renumbering first.memory.segmentCount :=
      { perm := Equiv.swap 2 3
        execution := by decide
        unallocated := fun index hle => Equiv.swap_apply_of_ne_of_ne
          (fun he => absurd (he ▸ hle) (by decide)) (fun he => absurd (he ▸ hle) (by decide)) }
    let second : Machine := { first with memory := first.memory.relocate renumbering }
    let reference := binary .add (doubleDeref (cell { base := .fp, offset := 0 }) 1) (immediate 7)
    first.memory.Relocates renumbering.perm second.memory ∧
      (reference.resolve first).result = .ok (.address { segment := 3, offset := 8 }) ∧
      (reference.resolve second).result = .ok (.address { segment := 2, offset := 8 }) := by
  intro first renumbering second reference
  have hmemory : first.memory.Relocates renumbering.perm second.memory :=
    first.memory.relocates_relocate renumbering
  have hfirst : (reference.resolve first).result = .ok (.address { segment := 3, offset := 8 }) :=
    rfl
  have hap : second.registers.ap = first.registers.ap := rfl
  have hsecond := (relocated_outcomes renumbering hap rfl hmemory reference).2
  rw [hfirst] at hsecond
  generalize (reference.resolve second).result = outcome at hsecond ⊢
  cases hsecond with
  | ok hmoved => exact ⟨hmemory, hfirst, congrArg Except.ok hmoved⟩

end Renumbering

end SymbolicOperand
