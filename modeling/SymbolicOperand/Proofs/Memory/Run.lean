import SymbolicOperand.Proofs.Memory.Lemmas

namespace SymbolicOperand.Memory

-- The calls that change a memory.
inductive Op where
  | allocate
  | write (cell : Address) (value : Value)
  deriving DecidableEq, Repr

inductive Answer where
  | allocated (index : Nat)
  | written (result : Except MemoryError Unit)

def step (memory : Memory) : Op → Memory × Answer
  | .allocate =>
      let (next, index) := memory.allocate
      (next, .allocated index)
  | .write cell value =>
      let (next, result) := memory.write cell value
      (next, .written result)

def run (memory : Memory) : List Op → Memory × List Answer
  | [] => (memory, [])
  | op :: ops =>
      let (next, answer) := memory.step op
      let (last, answers) := next.run ops
      (last, answer :: answers)

theorem run_append (memory : Memory) (first second : List Op) :
    memory.run (first ++ second) =
      (((memory.run first).1.run second).1,
        (memory.run first).2 ++ ((memory.run first).1.run second).2) := by
  induction first generalizing memory with
  | nil => rfl
  | cons op ops ih => simp only [List.cons_append, run, ih]

theorem length_run (memory : Memory) (ops : List Op) : (memory.run ops).2.length = ops.length := by
  induction ops generalizing memory with
  | nil => rfl
  | cons op ops ih => simp only [run, List.length_cons, ih]

-- Each call is answered by the memory that the calls before it left.
theorem run_getElem? (memory : Memory) (before : List Op) (op : Op) (after : List Op) :
    (memory.run (before ++ op :: after)).2[before.length]? =
      some ((memory.run before).1.step op).2 := by
  rw [run_append]
  simp [length_run, run]

variable (memory : Memory)

theorem step_write_unknown (cell : Address) (value : Value)
    (hread : memory.read cell = .error (.unknownSegment cell.segment)) :
    memory.step (.write cell value) = (memory, .written (.error (.unknownSegment cell.segment))) := by
  simp only [step, write_eq, hread]

theorem step_write_uninitialized (cell : Address) (value : Value)
    (hread : memory.read cell = .error (.uninitialized cell)) :
    memory.step (.write cell value) = (memory.insert cell value, .written (.ok ())) := by
  simp only [step, write_eq, hread]

theorem step_write_same (cell : Address) (value : Value) (hread : memory.read cell = .ok value) :
    memory.step (.write cell value) = (memory, .written (.ok ())) := by
  simp only [step, write_eq, hread, if_true]

theorem step_write_conflict (cell : Address) (old value : Value)
    (hread : memory.read cell = .ok old) (hne : old ≠ value) :
    memory.step (.write cell value) = (memory, .written (.error (.conflict cell old value))) := by
  simp only [step, write_eq, hread, if_neg hne]

end SymbolicOperand.Memory
