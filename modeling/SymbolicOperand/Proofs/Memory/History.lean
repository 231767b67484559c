import SymbolicOperand.Proofs.Memory.Run

namespace SymbolicOperand.Memory

def segmentsAfter (ops : List Op) : Nat :=
  2 + ops.count .allocate

-- The writes issued once their segment was there, oldest first.
def admitted (segments : Nat) : List Op → List (Address × Value)
  | [] => []
  | .allocate :: ops => admitted (segments + 1) ops
  | .write cell value :: ops =>
      if cell.segment.toNat < segments then (cell, value) :: admitted segments ops
      else admitted segments ops

-- The value of the first write to a cell. No later write replaces it.
def firstWritten (ops : List Op) (cell : Address) : Option Value :=
  (admitted 2 ops).lookup cell

-- One past the greatest offset written in a segment, or zero.
def extent (ops : List Op) (segment : UInt64) : Nat :=
  (((admitted 2 ops).filter (·.1.segment = segment)).map (·.1.offset.toNat + 1)).max?.getD 0

-- What a memory shows is what its history tells. A segment ends with a cell that was
-- written: cells are added only up to one that then gets a value.
structure Recounts (ops : List Op) (memory : Memory) : Prop where
  segmentCount : memory.segmentCount = segmentsAfter ops
  read : ∀ cell, memory.read cell =
    if cell.segment.toNat < segmentsAfter ops then
      match firstWritten ops cell with
      | some value => .ok value
      | none => .error (.uninitialized cell)
    else .error (.unknownSegment cell.segment)
  segmentLength? : ∀ segment, memory.segmentLength? segment =
    if segment.toNat < segmentsAfter ops then some (extent ops segment) else none
  last : ∀ segment length, memory.segmentLength? segment = some (length + 1) →
    ∃ cell value, cell.segment = segment ∧ cell.offset.toNat = length ∧
      memory.read cell = .ok value

theorem segmentsAfter_concat_allocate (ops : List Op) :
    segmentsAfter (ops ++ [.allocate]) = segmentsAfter ops + 1 := by
  simp only [segmentsAfter, List.count_append, List.count_singleton_self]
  omega

theorem segmentsAfter_concat_write (ops : List Op) (cell : Address) (value : Value) :
    segmentsAfter (ops ++ [.write cell value]) = segmentsAfter ops := by
  simp [segmentsAfter, List.count_append]

private theorem admitted_append (segments : Nat) (first second : List Op) :
    admitted segments (first ++ second) =
      admitted segments first ++ admitted (segments + first.count .allocate) second := by
  induction first generalizing segments with
  | nil => simp [admitted]
  | cons op ops ih =>
      cases op with
      | allocate =>
          have hcount : segments + 1 + ops.count .allocate =
              segments + (Op.allocate :: ops).count .allocate := by
            rw [List.count_cons_self]; omega
          rw [List.cons_append, admitted, ih, hcount]
          rfl
      | write cell value =>
          simp only [List.cons_append, admitted, ih]
          split <;> simp

theorem admitted_concat_allocate (ops : List Op) :
    admitted 2 (ops ++ [.allocate]) = admitted 2 ops := by
  simp [admitted_append, admitted]

theorem admitted_concat_write (ops : List Op) (cell : Address) (value : Value) :
    admitted 2 (ops ++ [.write cell value]) =
      admitted 2 ops ++ if cell.segment.toNat < segmentsAfter ops then [(cell, value)] else [] := by
  rw [admitted_append]
  rfl

theorem admitted_segment_lt (segments : Nat) (ops : List Op) (write : Address × Value)
    (hmem : write ∈ admitted segments ops) :
    write.1.segment.toNat < segments + ops.count .allocate := by
  induction ops generalizing segments with
  | nil => simp [admitted] at hmem
  | cons op ops ih =>
      cases op with
      | allocate =>
          have h := ih (segments + 1) hmem
          rw [List.count_cons_self]
          omega
      | write cell value =>
          rw [List.count_cons_of_ne (by simp)]
          simp only [admitted] at hmem
          split at hmem
          · next hlt =>
              rcases List.mem_cons.mp hmem with rfl | hrest
              · exact Nat.lt_add_right _ hlt
              · exact ih segments hrest
          · exact ih segments hmem

private theorem max?_getD_concat (numbers : List Nat) (last : Nat) :
    (numbers ++ [last]).max?.getD 0 = max (numbers.max?.getD 0) last := by
  cases numbers with
  | nil => simp
  | cons first rest =>
      rw [List.cons_append, List.max?_cons', List.max?_cons', List.foldl_append]
      rfl

theorem extent_concat_allocate (ops : List Op) (segment : UInt64) :
    extent (ops ++ [.allocate]) segment = extent ops segment := by
  unfold extent
  rw [admitted_concat_allocate]

theorem extent_concat_write (ops : List Op) (cell : Address) (value : Value) (segment : UInt64)
    (hsegment : cell.segment.toNat < segmentsAfter ops) :
    extent (ops ++ [.write cell value]) segment =
      if segment = cell.segment then max (extent ops segment) (cell.offset.toNat + 1)
      else extent ops segment := by
  unfold extent
  rw [admitted_concat_write, if_pos hsegment, List.filter_append, List.map_append]
  by_cases h : segment = cell.segment
  · subst h
    rw [List.filter_cons_of_pos (by simp), List.filter_nil, if_pos rfl]
    exact max?_getD_concat _ _
  · have hne : cell.segment ≠ segment := Ne.symm h
    simp [h, hne]

theorem extent_of_segmentsAfter_le (ops : List Op) (segment : UInt64)
    (hsegment : segmentsAfter ops ≤ segment.toNat) : extent ops segment = 0 := by
  have hnone : (admitted 2 ops).filter (·.1.segment = segment) = [] := by
    rw [List.filter_eq_nil_iff]
    intro write hmem heq
    have hlt := admitted_segment_lt 2 ops write hmem
    rw [of_decide_eq_true heq] at hlt
    unfold segmentsAfter at hsegment
    omega
  unfold extent
  rw [hnone]
  rfl

theorem lt_extent_of_firstWritten (ops : List Op) (cell : Address) (value : Value)
    (hfirst : firstWritten ops cell = some value) :
    cell.offset.toNat + 1 ≤ extent ops cell.segment := by
  obtain ⟨before, after, hsplit, -⟩ := List.lookup_eq_some_iff.mp hfirst
  apply List.le_max?_getD_of_mem
  rw [List.mem_map]
  refine ⟨(cell, value), ?_, rfl⟩
  simp [hsplit]

theorem firstWritten_concat_allocate (ops : List Op) (cell : Address) :
    firstWritten (ops ++ [.allocate]) cell = firstWritten ops cell := by
  unfold firstWritten
  rw [admitted_concat_allocate]

theorem firstWritten_concat_write (ops : List Op) (cell : Address) (value : Value)
    (hsegment : cell.segment.toNat < segmentsAfter ops) (other : Address) :
    firstWritten (ops ++ [.write cell value]) other =
      (firstWritten ops other).or (if other = cell then some value else none) := by
  unfold firstWritten
  rw [admitted_concat_write, if_pos hsegment, List.lookup_append, List.lookup_cons]
  by_cases h : other = cell
  · simp [h]
  · simp [beq_false_of_ne h, h]

theorem firstWritten_of_segmentsAfter_le (ops : List Op) (cell : Address)
    (hsegment : segmentsAfter ops ≤ cell.segment.toNat) : firstWritten ops cell = none := by
  unfold firstWritten
  rw [List.lookup_eq_none_iff]
  intro write hmem
  have hlt := admitted_segment_lt 2 ops write hmem
  have hne : cell ≠ write.1 := by
    intro he
    rw [← he] at hlt
    unfold segmentsAfter at hsegment
    omega
  simpa using hne

theorem recounts_initial : Recounts [] initial where
  segmentCount := rfl
  read := read_initial
  segmentLength? segment := by
    simp only [segmentLength?, segment?_initial]
    show _ = if segment.toNat < 2 then some 0 else none
    split <;> simp
  last segment length hlength := by
    simp only [segmentLength?, segment?_initial] at hlength
    split at hlength <;> simp at hlength

variable {ops : List Op} {memory : Memory}

theorem Recounts.allocate (h : Recounts ops memory) :
    Recounts (ops ++ [.allocate]) memory.allocate.1 where
  segmentCount := by
    rw [segmentCount_allocate, h.segmentCount, segmentsAfter_concat_allocate]
  read cell := by
    rw [read_allocate, h.segmentCount, segmentsAfter_concat_allocate, firstWritten_concat_allocate,
      h.read]
    by_cases hnew : cell.segment.toNat = segmentsAfter ops
    · have hnone := firstWritten_of_segmentsAfter_le ops cell (Nat.le_of_eq hnew.symm)
      simp [hnew, hnone]
    · have hlt : cell.segment.toNat < segmentsAfter ops + 1 ↔
          cell.segment.toNat < segmentsAfter ops := by omega
      simp only [hnew, if_false, hlt]
  segmentLength? segment := by
    rw [segmentLength?_allocate, h.segmentCount, segmentsAfter_concat_allocate,
      extent_concat_allocate, h.segmentLength?]
    by_cases hnew : segment.toNat = segmentsAfter ops
    · have hzero := extent_of_segmentsAfter_le ops segment (Nat.le_of_eq hnew.symm)
      simp [hnew, hzero]
    · have hlt : segment.toNat < segmentsAfter ops + 1 ↔ segment.toNat < segmentsAfter ops := by
        omega
      simp only [hnew, if_false, hlt]
  last segment length hlength := by
    rw [segmentLength?_allocate] at hlength
    split at hlength
    · simp at hlength
    · obtain ⟨cell, value, hsegment, hoffset, hread⟩ := h.last segment length hlength
      exact ⟨cell, value, hsegment, hoffset, memory.read_allocate_of_ok hread⟩

theorem Recounts.write_unknown (h : Recounts ops memory) (cell : Address) (value : Value)
    (hsegment : segmentsAfter ops ≤ cell.segment.toNat) :
    Recounts (ops ++ [.write cell value]) memory := by
  have hadmitted : admitted 2 (ops ++ [.write cell value]) = admitted 2 ops := by
    rw [admitted_concat_write, if_neg (by omega), List.append_nil]
  refine ⟨?_, ?_, ?_, h.last⟩
  · rw [segmentsAfter_concat_write, h.segmentCount]
  · intro other
    rw [segmentsAfter_concat_write, h.read]
    simp only [firstWritten, hadmitted]
  · intro segment
    rw [segmentsAfter_concat_write, h.segmentLength?]
    simp only [extent, hadmitted]

theorem Recounts.write_uninitialized (h : Recounts ops memory) (cell : Address) (value : Value)
    (hsegment : cell.segment.toNat < segmentsAfter ops) (hfirst : firstWritten ops cell = none) :
    Recounts (ops ++ [.write cell value]) (memory.insert cell value) where
  segmentCount := by
    rw [segmentCount_insert, h.segmentCount, segmentsAfter_concat_write]
  read other := by
    rw [read_insert memory cell value (by rwa [h.segmentCount]), segmentsAfter_concat_write,
      firstWritten_concat_write ops cell value hsegment, h.read]
    by_cases he : other = cell
    · subst he
      simp [hsegment, hfirst]
    · simp [he]
  segmentLength? segment := by
    rw [segmentLength?_insert, h.segmentLength?, segmentsAfter_concat_write,
      extent_concat_write ops cell value segment hsegment]
    by_cases hlt : segment.toNat < segmentsAfter ops
    · simp only [hlt, if_true, Option.map_some]
    · simp only [hlt, if_false, Option.map_none]
  last segment length hlength := by
    have hempty : memory.read cell = .error (.uninitialized cell) := by
      rw [h.read, if_pos hsegment, hfirst]
    rw [segmentLength?_insert] at hlength
    obtain ⟨before, hbefore, hgrown⟩ := Option.map_eq_some_iff.mp hlength
    -- the segment ends with the new cell, or where it ended before
    by_cases hnew : segment = cell.segment ∧ cell.offset.toNat = length
    · exact ⟨cell, value, hnew.1.symm, hnew.2,
        memory.read_write_self ((memory.write_eq_ok_iff cell value _).mpr (.inr ⟨hempty, rfl⟩))⟩
    · have hkept : before = length + 1 := by
        split at hgrown
        · next he =>
            have hne : cell.offset.toNat ≠ length := fun hoffset => hnew ⟨he, hoffset⟩
            omega
        · exact hgrown
      obtain ⟨other, old, hother, hoffset, hread⟩ := h.last segment length (hkept ▸ hbefore)
      exact ⟨other, old, hother, hoffset, memory.read_insert_of_ok cell value hempty hread⟩

-- A later write changes nothing, whether its value is the one that is there or not.
theorem Recounts.write_again (h : Recounts ops memory) (cell : Address) (old value : Value)
    (hsegment : cell.segment.toNat < segmentsAfter ops) (hfirst : firstWritten ops cell = some old) :
    Recounts (ops ++ [.write cell value]) memory where
  segmentCount := by
    rw [h.segmentCount, segmentsAfter_concat_write]
  read other := by
    rw [h.read, segmentsAfter_concat_write, firstWritten_concat_write ops cell value hsegment]
    by_cases he : other = cell
    · subst he
      simp [hfirst]
    · simp [he]
  segmentLength? segment := by
    rw [h.segmentLength?, segmentsAfter_concat_write,
      extent_concat_write ops cell value segment hsegment]
    by_cases he : segment = cell.segment
    · subst he
      have hle := lt_extent_of_firstWritten ops cell old hfirst
      simp [Nat.max_eq_left hle]
    · simp [he]
  last := h.last

theorem Recounts.step (h : Recounts ops memory) (op : Op) :
    Recounts (ops ++ [op]) (memory.step op).1 := by
  cases op with
  | allocate => exact h.allocate
  | write cell value =>
      have hread := h.read cell
      by_cases hsegment : cell.segment.toNat < segmentsAfter ops
      · rw [if_pos hsegment] at hread
        cases hfirst : firstWritten ops cell with
        | none =>
            rw [hfirst] at hread
            rw [step_write_uninitialized memory cell value hread]
            exact h.write_uninitialized cell value hsegment hfirst
        | some old =>
            rw [hfirst] at hread
            have hsame : (memory.step (.write cell value)).1 = memory := by
              by_cases he : old = value
              · rw [step_write_same memory cell value (he ▸ hread)]
              · rw [step_write_conflict memory cell old value hread he]
            rw [hsame]
            exact h.write_again cell old value hsegment hfirst
      · rw [if_neg hsegment] at hread
        rw [step_write_unknown memory cell value hread]
        exact h.write_unknown cell value (Nat.le_of_not_lt hsegment)

theorem Recounts.run (h : Recounts ops memory) (later : List Op) :
    Recounts (ops ++ later) (memory.run later).1 := by
  induction later generalizing ops memory with
  | nil => simpa only [Memory.run, List.append_nil] using h
  | cons op later ih =>
      have hlast := ih (h.step op)
      rwa [List.append_assoc] at hlast

-- What the answer to a write says about the memory before it and after it.
structure Answers (before after : Memory) (cell : Address) (value : Value)
    (result : Except MemoryError Unit) : Prop where
  unknownSegment : result = .error (.unknownSegment cell.segment) ↔
    before.segmentCount ≤ cell.segment.toNat
  conflict : ∀ old, result = .error (.conflict cell old value) ↔
    before.read cell = .ok old ∧ old ≠ value
  ok : result = .ok () ↔ cell.segment.toNat < before.segmentCount ∧
    ∀ old, before.read cell = .ok old → old = value
  unchanged : ∀ cause, result = .error cause →
    after.segmentCount = before.segmentCount ∧
    (∀ other, after.read other = before.read other) ∧
    ∀ segment, after.segmentLength? segment = before.segmentLength? segment

theorem exists_step_write (memory : Memory) (cell : Address) (value : Value) :
    ∃ result, (memory.step (.write cell value)).2 = .written result ∧
      Answers memory (memory.step (.write cell value)).1 cell value result := by
  rcases memory.read_cases cell with ⟨hle, hread⟩ | ⟨hlt, hread | ⟨old, hread⟩⟩
  · rw [step_write_unknown memory cell value hread]
    refine ⟨_, rfl, ?_, ?_, ?_, fun _ _ => ⟨rfl, fun _ => rfl, fun _ => rfl⟩⟩
    · simpa using hle
    · simp [hread]
    · simpa using fun hlt => absurd hle (Nat.not_le_of_lt hlt)
  · rw [step_write_uninitialized memory cell value hread]
    refine ⟨_, rfl, ?_, ?_, ?_, fun _ he => nomatch he⟩
    · simpa using hlt
    · simp [hread]
    · simp [hread, hlt]
  · by_cases he : old = value
    · subst he
      rw [step_write_same memory cell old hread]
      refine ⟨_, rfl, ?_, ?_, ?_, fun _ he => nomatch he⟩
      · simpa using hlt
      · simp [hread]
      · simp [hread, hlt]
    · rw [step_write_conflict memory cell old value hread he]
      refine ⟨_, rfl, ?_, ?_, ?_, fun _ _ => ⟨rfl, fun _ => rfl, fun _ => rfl⟩⟩
      · simpa using hlt
      · intro other
        simp only [hread, Except.error.injEq, MemoryError.conflict.injEq, true_and, and_true,
          Except.ok.injEq]
        exact ⟨fun heq => ⟨heq, heq ▸ he⟩, And.left⟩
      · simpa [hread, hlt] using he

-- Allocations and writes in any order leave the partial map that their history
-- describes, and every call is answered from the history before it. Offsets are not
-- bounded, see `Segment.write`.
theorem run_initial_recounts (ops : List Op) :
    Recounts ops (initial.run ops).1 ∧
    (∀ before after, ops = before ++ .allocate :: after →
      (initial.run ops).2[before.length]? =
        some (.allocated (2 + before.count .allocate))) ∧
    ∀ before cell value after, ops = before ++ .write cell value :: after →
      ∃ result, (initial.run ops).2[before.length]? = some (.written result) ∧
        Answers (initial.run before).1 (initial.run (before ++ [.write cell value])).1
          cell value result := by
  refine ⟨recounts_initial.run ops, ?_, ?_⟩
  · rintro before after rfl
    have hcount := (recounts_initial.run before).segmentCount
    rw [run_getElem?]
    simp only [Memory.step, allocate, hcount, List.nil_append, segmentsAfter]
  · rintro before cell value after rfl
    obtain ⟨result, hresult, hanswers⟩ := (initial.run before).1.exists_step_write cell value
    refine ⟨result, ?_, ?_⟩
    · rw [run_getElem?, hresult]
    · rwa [run_append]

end SymbolicOperand.Memory
