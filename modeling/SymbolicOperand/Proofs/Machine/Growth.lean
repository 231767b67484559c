import SymbolicOperand.Machine
import SymbolicOperand.Reference.Cell
import SymbolicOperand.Proofs.Memory.Lemmas

namespace SymbolicOperand.Machine

-- The calls that add to the memory of a machine. None of them moves a register.
inductive Op where
  | allocate
  | write (cell : Address) (value : Value)
  | writeExecution (offset : UInt64) (value : Value)
  deriving DecidableEq, Repr

-- The machine that a call leaves, refused or not.
def call (machine : Machine) : Op → Machine
  | .allocate => { machine with memory := machine.memory.allocate.1 }
  | .write cell value => (machine.write cell value).1
  | .writeExecution offset value => (machine.writeExecution offset value).1

def run (machine : Machine) (ops : List Op) : Machine :=
  ops.foldl call machine

-- The registers stay where they are, and what was stored stays.
structure Grows (before after : Machine) : Prop where
  registers : ∀ base, after.registers.get base = before.registers.get base
  read : ∀ {cell value}, before.memory.read cell = .ok value → after.memory.read cell = .ok value

theorem Grows.refl (machine : Machine) : machine.Grows machine :=
  ⟨fun _ => rfl, id⟩

theorem Grows.trans {before middle after : Machine} (hfirst : before.Grows middle)
    (hsecond : middle.Grows after) : before.Grows after :=
  ⟨fun base => (hsecond.registers base).trans (hfirst.registers base),
    fun hread => hsecond.read (hfirst.read hread)⟩

variable (machine : Machine)

theorem write_eq_ok_iff (cell : Address) (value : Value) (next : Machine) :
    machine.write cell value = (next, .ok ()) ↔
      ∃ memory, machine.memory.write cell value = (memory, .ok ()) ∧
        next = { machine with memory } := by
  simp only [write, Prod.ext_iff]
  constructor
  · rintro ⟨rfl, hresult⟩
    exact ⟨_, ⟨rfl, hresult⟩, rfl⟩
  · rintro ⟨memory, ⟨rfl, hresult⟩, rfl⟩
    exact ⟨rfl, hresult⟩

-- A cell without a value takes any.
theorem exists_write {cell : Address}
    (hunset : machine.memory.read cell = .error (.uninitialized cell)) (value : Value) :
    ∃ next, machine.write cell value = (next, .ok ()) := by
  have hmemory := (machine.memory.write_eq_ok_iff cell value _).mpr (.inr ⟨hunset, rfl⟩)
  exact ⟨_, (machine.write_eq_ok_iff cell value _).mpr ⟨_, hmemory, rfl⟩⟩

theorem read_write_self {cell : Address} {value : Value} {next : Machine}
    (hwrite : machine.write cell value = (next, .ok ())) : next.memory.read cell = .ok value := by
  obtain ⟨memory, hmemory, rfl⟩ := (machine.write_eq_ok_iff cell value next).mp hwrite
  exact machine.memory.read_write_self hmemory

theorem grows_write {cell : Address} {value : Value} {next : Machine}
    {result : Except MemoryError Unit} (hwrite : machine.write cell value = (next, result)) :
    machine.Grows next := by
  obtain rfl : (machine.write cell value).1 = next := congrArg Prod.fst hwrite
  exact ⟨fun _ => rfl, machine.memory.read_write_of_ok rfl⟩

theorem grows_call (op : Op) : machine.Grows (machine.call op) := by
  cases op with
  | allocate => exact ⟨fun _ => rfl, machine.memory.read_allocate_of_ok⟩
  | write cell value => exact machine.grows_write rfl
  | writeExecution offset value => exact machine.grows_write rfl

theorem grows_run (ops : List Op) : machine.Grows (machine.run ops) := by
  induction ops generalizing machine with
  | nil => exact .refl machine
  | cons op ops ih => exact (machine.grows_call op).trans (ih (machine.call op))

theorem segmentCount_call (op : Op) (hop : op ≠ .allocate) :
    (machine.call op).memory.segmentCount = machine.memory.segmentCount := by
  cases op with
  | allocate => exact absurd rfl hop
  | write cell value => exact machine.memory.segmentCount_write cell value
  | writeExecution offset value => exact machine.memory.segmentCount_write _ value

theorem segmentCount_run (ops : List Op) (hops : .allocate ∉ ops) :
    (machine.run ops).memory.segmentCount = machine.memory.segmentCount := by
  induction ops generalizing machine with
  | nil => rfl
  | cons op ops ih =>
      simp only [List.mem_cons, not_or] at hops
      obtain ⟨hop, hrest⟩ := hops
      exact (ih (machine.call op) hrest).trans (machine.segmentCount_call op (Ne.symm hop))

end SymbolicOperand.Machine
