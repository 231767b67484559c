import SymbolicOperand.Proofs.Reference.Persistence
import SymbolicOperand.Proofs.Reference.Success

namespace SymbolicOperand.Reference

variable {machine : Machine}

-- The references whose value is the content of the cell that they denote.
def IsIndirection : Reference → Prop
  | deref _ | doubleDeref .. => True
  | cell _ | immediate _ | binary .. => False

theorem resolve_deref_of_locate {reference : Reference} {target : Address} {value : Value}
    (hlocate : (reference.locate machine).result = .ok target)
    (hread : machine.memory.read target = .ok value) :
    ((deref reference).resolve machine).result = .ok value :=
  resolve_deref_eq_ok_iff.mpr ⟨target, hlocate, hread⟩

-- An indirection is located at the cell that it is read from.
theorem IsIndirection.resolve_of_locate {reference : Reference} (h : reference.IsIndirection)
    {target : Address} {value : Value} (hlocate : (reference.locate machine).result = .ok target)
    (hread : machine.memory.read target = .ok value) :
    (reference.resolve machine).result = .ok value := by
  cases reference with
  | deref inner => exact resolve_deref_of_locate hlocate hread
  | doubleDeref inner offset => exact resolve_doubleDeref_eq_ok_iff.mpr ⟨target, hlocate, hread⟩
  | cell c => exact h.elim
  | immediate number => exact h.elim
  | binary operator lhs rhs => exact h.elim

-- A value stored at the cell of a reference is what every later load through the reference
-- gives. The store cannot turn the reference away from the cell, even where the cell is one
-- of the pointers on the way: a pointer that was followed is in its cell for good.
theorem loads_stored (machine : Machine) (reference : Reference) {target : Address} {value : Value}
    {stored : Machine} (hlocate : (reference.locate machine).result = .ok target)
    (hwrite : machine.write target value = (stored, .ok ())) (ops : List Machine.Op) :
    (reference.locate (stored.run ops)).result = .ok target ∧
      ((deref reference).resolve (stored.run ops)).result = .ok value ∧
      (reference.IsIndirection → (reference.resolve (stored.run ops)).result = .ok value) := by
  have hgrows : machine.Grows (stored.run ops) :=
    (machine.grows_write hwrite).trans (stored.grows_run ops)
  have hlocate' : (reference.locate (stored.run ops)).result = .ok target :=
    (Machine.repeats_reference hgrows reference).1.ok hlocate
  have hread : (stored.run ops).memory.read target = .ok value :=
    (stored.grows_run ops).read (machine.read_write_self hwrite)
  exact ⟨hlocate', resolve_deref_of_locate hlocate' hread,
    fun hindirection => hindirection.resolve_of_locate hlocate' hread⟩

-- Two cells that point at each other, and later calls that try to write to two of the cells.
-- A store into the cell that is followed first gives it what it holds. A store into the
-- cell after them, which is unset before, is what the later loads see.
theorem loads_stored_cycle :
    let first : Address := { segment := 1, offset := 0 }
    let second : Address := { segment := 1, offset := 1 }
    let third : Address := { segment := 1, offset := 2 }
    let machine : Machine := { Machine.start (Registers.start 0) with
      memory := { segments :=
        #[{}, { cells := #[some (.address second), some (.address first)] }] } }
    let around := doubleDeref (doubleDeref (cell { base := .fp, offset := 0 }) 0) 0
    let beyond := doubleDeref (doubleDeref (cell { base := .fp, offset := 0 }) 0) 2
    let ops : List Machine.Op := [.allocate, .write first (.felt 3), .writeExecution 2 (.felt 4)]
    (∃ stored, (around.locate machine).result = .ok first ∧
      machine.write first (.address second) = (stored, .ok ()) ∧
      (around.locate (stored.run ops)).result = .ok first ∧
      (around.resolve (stored.run ops)).result = .ok (.address second)) ∧
    machine.memory.read third = .error (.uninitialized third) ∧
    ∃ stored, (beyond.locate machine).result = .ok third ∧
      machine.write third (.felt 9) = (stored, .ok ()) ∧
      (beyond.locate (stored.run ops)).result = .ok third ∧
      (beyond.resolve (stored.run ops)).result = .ok (.felt 9) := by
  intro first second third machine around beyond ops
  have haround : (around.locate machine).result = .ok first := rfl
  have hfirst : machine.write first (.address second) = (machine, .ok ()) := rfl
  obtain ⟨haround', -, hpointer⟩ := loads_stored machine around haround hfirst ops
  have hunset : machine.memory.read third = .error (.uninitialized third) := rfl
  have hbeyond : (beyond.locate machine).result = .ok third := rfl
  obtain ⟨stored, hthird⟩ := machine.exists_write hunset (.felt 9)
  obtain ⟨hbeyond', -, hvalue⟩ := loads_stored machine beyond hbeyond hthird ops
  exact ⟨⟨machine, haround, hfirst, haround', hpointer trivial⟩, hunset,
    stored, hbeyond, hthird, hbeyond', hvalue trivial⟩

end SymbolicOperand.Reference
