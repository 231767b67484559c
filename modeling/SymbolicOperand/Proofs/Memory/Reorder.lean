import SymbolicOperand.Proofs.Memory.Run

namespace SymbolicOperand.Memory

-- Two memories that no call can tell apart.
structure Alike (memory other : Memory) : Prop where
  segmentCount : memory.segmentCount = other.segmentCount
  read : ∀ cell, memory.read cell = other.read cell
  segmentLength? : ∀ segment, memory.segmentLength? segment = other.segmentLength? segment

variable {memory other : Memory}

theorem Alike.refl (memory : Memory) : Alike memory memory :=
  ⟨rfl, fun _ => rfl, fun _ => rfl⟩

theorem Alike.trans {third : Memory} (hfirst : Alike memory other) (hsecond : Alike other third) :
    Alike memory third :=
  ⟨hfirst.segmentCount.trans hsecond.segmentCount,
    fun cell => (hfirst.read cell).trans (hsecond.read cell),
    fun segment => (hfirst.segmentLength? segment).trans (hsecond.segmentLength? segment)⟩

theorem Alike.allocate (h : Alike memory other) : Alike memory.allocate.1 other.allocate.1 where
  segmentCount := by rw [segmentCount_allocate, segmentCount_allocate, h.segmentCount]
  read cell := by rw [read_allocate, read_allocate, h.segmentCount, h.read]
  segmentLength? segment := by
    rw [segmentLength?_allocate, segmentLength?_allocate, h.segmentCount, h.segmentLength?]

theorem Alike.insert (h : Alike memory other) (cell : Address) (value : Value)
    (hsegment : cell.segment.toNat < memory.segmentCount) :
    Alike (memory.insert cell value) (other.insert cell value) where
  segmentCount := by rw [segmentCount_insert, segmentCount_insert, h.segmentCount]
  read target := by
    rw [read_insert memory cell value hsegment,
      read_insert other cell value (h.segmentCount ▸ hsegment), h.read]
  segmentLength? segment := by rw [segmentLength?_insert, segmentLength?_insert, h.segmentLength?]

-- A call is answered by what the memory shows, and leaves what it shows determined.
theorem Alike.step (h : Alike memory other) (op : Op) :
    Alike (memory.step op).1 (other.step op).1 ∧ (memory.step op).2 = (other.step op).2 := by
  cases op with
  | allocate =>
      refine ⟨h.allocate, ?_⟩
      simp only [Memory.step, Memory.allocate, h.segmentCount]
  | write cell value =>
      have hread := h.read cell
      rcases memory.read_cases cell with ⟨-, hunknown⟩ | ⟨hsegment, hempty | ⟨old, hold⟩⟩
      · rw [step_write_unknown memory cell value hunknown,
          step_write_unknown other cell value (hread ▸ hunknown)]
        exact ⟨h, rfl⟩
      · rw [step_write_uninitialized memory cell value hempty,
          step_write_uninitialized other cell value (hread ▸ hempty)]
        exact ⟨h.insert cell value hsegment, rfl⟩
      · by_cases he : old = value
        · subst he
          rw [step_write_same memory cell old hold, step_write_same other cell old (hread ▸ hold)]
          exact ⟨h, rfl⟩
        · rw [step_write_conflict memory cell old value hold he,
            step_write_conflict other cell old value (hread ▸ hold) he]
          exact ⟨h, rfl⟩

theorem Alike.run (h : Alike memory other) (ops : List Op) :
    Alike (memory.run ops).1 (other.run ops).1 ∧ (memory.run ops).2 = (other.run ops).2 := by
  induction ops generalizing memory other with
  | nil => exact ⟨h, rfl⟩
  | cons op ops ih =>
      obtain ⟨hnext, hanswer⟩ := h.step op
      obtain ⟨hlast, hanswers⟩ := ih hnext
      refine ⟨hlast, ?_⟩
      simp only [Memory.run, hanswer, hanswers]

-- Insertions into two cells do not depend on their order, though the segment may grow
-- to its length in other steps: a cell that one of them adds unset the other one fills.
theorem insert_insert_alike (memory : Memory) {first second : Address} (hne : first ≠ second)
    (value next : Value) (hfirst : first.segment.toNat < memory.segmentCount)
    (hsecond : second.segment.toNat < memory.segmentCount) :
    Alike ((memory.insert first value).insert second next)
      ((memory.insert second next).insert first value) where
  segmentCount := by simp only [segmentCount_insert]
  read cell := by
    rw [read_insert _ second next (by rwa [segmentCount_insert]), read_insert _ first value hfirst,
      read_insert _ first value (by rwa [segmentCount_insert]), read_insert _ second next hsecond]
    by_cases h : cell = first
    · subst h
      simp [hne]
    · simp [h]
  segmentLength? segment := by
    simp only [segmentLength?_insert, Option.map_map]
    congr 1
    funext length
    simp only [Function.comp_apply]
    split <;> split <;> omega

-- Issue a list of writes, the refused ones included.
def runWrites (memory : Memory) (writes : List (Address × Value)) : Memory × List Answer :=
  memory.run (writes.map fun (cell, value) => .write cell value)

-- Every write of the list is answered with success.
def Accepts (memory : Memory) (writes : List (Address × Value)) : Prop :=
  ∀ answer ∈ (memory.runWrites writes).2, answer = .written (.ok ())

-- Some write of the list is answered with a conflict.
def Conflicts (memory : Memory) (writes : List (Address × Value)) : Prop :=
  ∃ cell old new, .written (.error (.conflict cell old new)) ∈ (memory.runWrites writes).2

variable {cell : Address} {value : Value} {writes again : List (Address × Value)}

theorem step_write_of_ok {next : Memory} (hwrite : memory.write cell value = (next, .ok ())) :
    memory.step (.write cell value) = (next, .written (.ok ())) := by
  simp only [step, hwrite]

theorem step_write_ok_iff :
    (memory.step (.write cell value)).2 = .written (.ok ()) ↔
      ∃ next, memory.write cell value = (next, .ok ()) := by
  simp only [step]
  rcases memory.write_cases cell value with ⟨next, hwrite⟩ | ⟨cause, hwrite⟩
  · simp [hwrite]
  · simp [hwrite]

theorem runWrites_cons_of_ok {next : Memory} (hwrite : memory.write cell value = (next, .ok ())) :
    (memory.runWrites ((cell, value) :: writes)).1 = (next.runWrites writes).1 := by
  simp only [runWrites, List.map_cons, run, step_write_of_ok hwrite]

theorem accepts_cons :
    Accepts memory ((cell, value) :: writes) ↔
      ∃ next, memory.write cell value = (next, .ok ()) ∧ Accepts next writes := by
  simp only [Accepts, runWrites, List.map_cons, run, List.forall_mem_cons, step_write_ok_iff]
  constructor
  · rintro ⟨⟨next, hwrite⟩, hrest⟩
    rw [step_write_of_ok hwrite] at hrest
    exact ⟨next, hwrite, hrest⟩
  · rintro ⟨next, hwrite, hrest⟩
    rw [step_write_of_ok hwrite]
    exact ⟨⟨next, hwrite⟩, hrest⟩

theorem Alike.accepts (h : Alike memory other) (haccepts : Accepts memory writes) :
    Accepts other writes := by
  unfold Accepts runWrites
  rw [← (h.run _).2]
  exact haccepts

theorem write_of_read {memory : Memory} (hread : memory.read cell = .ok value) :
    memory.write cell value = (memory, .ok ()) :=
  (memory.write_eq_ok_iff cell value memory).mpr (.inl ⟨hread, rfl⟩)

theorem write_of_empty {memory : Memory} (hread : memory.read cell = .error (.uninitialized cell)) :
    memory.write cell value = (memory.insert cell value, .ok ()) :=
  (memory.write_eq_ok_iff cell value _).mpr (.inr ⟨hread, rfl⟩)

-- The second write sees what the first one left only in the first one's cell. There they
-- wrote the same value, or the second would have been refused.
theorem write_swap {first second : Address} {middle last : Memory} {next : Value}
    (hfirst : memory.write first value = (middle, .ok ()))
    (hsecond : middle.write second next = (last, .ok ())) :
    ∃ middle' last', memory.write second next = (middle', .ok ()) ∧
      middle'.write first value = (last', .ok ()) ∧ Alike last last' := by
  rcases (memory.write_eq_ok_iff first value middle).mp hfirst with ⟨hread, rfl⟩ | ⟨hempty, rfl⟩
  · have hkept := middle.read_write_of_ok hsecond hread
    exact ⟨last, last, hsecond, write_of_read hkept, .refl last⟩
  · have hin := memory.segment_lt_of_read first (by simp [hempty])
    have hframe := memory.read_insert first value hin second
    rcases ((memory.insert first value).write_eq_ok_iff second next last).mp hsecond with
      ⟨hread', rfl⟩ | ⟨hempty', rfl⟩
    · by_cases he : second = first
      · subst he
        rw [if_pos rfl, hread'] at hframe
        cases hframe
        exact ⟨_, _, hfirst, hsecond, .refl _⟩
      · rw [if_neg he, hread'] at hframe
        exact ⟨memory, _, write_of_read hframe.symm, hfirst, .refl _⟩
    · by_cases he : second = first
      · rw [if_pos he, hempty'] at hframe
        cases hframe
      · rw [if_neg he, hempty'] at hframe
        have hin' := memory.segment_lt_of_read second (by simp [← hframe])
        have hfree : (memory.insert second next).read first = .error (.uninitialized first) := by
          rw [read_insert memory second next hin', if_neg (Ne.symm he), hempty]
        exact ⟨_, _, write_of_empty hframe.symm, write_of_empty hfree,
          memory.insert_insert_alike (Ne.symm he) value next hin hin'⟩

-- Accepted writes are accepted in every order, and no call can tell the orders apart.
theorem Accepts.perm (haccepts : Accepts memory writes) {writes' : List (Address × Value)}
    (hperm : writes.Perm writes') :
    Accepts memory writes' ∧ Alike (memory.runWrites writes).1 (memory.runWrites writes').1 := by
  induction hperm generalizing memory with
  | nil => exact ⟨haccepts, .refl _⟩
  | cons write _ ih =>
      obtain ⟨next, hwrite, hrest⟩ := accepts_cons.mp haccepts
      obtain ⟨hrest', halike⟩ := ih hrest
      refine ⟨accepts_cons.mpr ⟨next, hwrite, hrest'⟩, ?_⟩
      rw [runWrites_cons_of_ok hwrite, runWrites_cons_of_ok hwrite]
      exact halike
  | swap second first rest =>
      obtain ⟨middle, hfirst, hmore⟩ := accepts_cons.mp haccepts
      obtain ⟨last, hsecond, hrest⟩ := accepts_cons.mp hmore
      obtain ⟨middle', last', hsecond', hfirst', halike⟩ := write_swap hfirst hsecond
      refine ⟨accepts_cons.mpr ⟨middle', hsecond',
        accepts_cons.mpr ⟨last', hfirst', halike.accepts hrest⟩⟩, ?_⟩
      rw [runWrites_cons_of_ok hfirst, runWrites_cons_of_ok hsecond, runWrites_cons_of_ok hsecond',
        runWrites_cons_of_ok hfirst']
      exact (halike.run _).1
  | trans _ _ ihfirst ihsecond =>
      obtain ⟨hmiddle, halike⟩ := ihfirst haccepts
      obtain ⟨hlast, halike'⟩ := ihsecond hmiddle
      exact ⟨hlast, halike.trans halike'⟩

-- An accepted list leaves each of its values in the cell.
theorem Accepts.read (haccepts : Accepts memory writes) {cell : Address} {value : Value}
    (hread : memory.read cell = .ok value ∨ (cell, value) ∈ writes) :
    (memory.runWrites writes).1.read cell = .ok value := by
  induction writes generalizing memory with
  | nil => simpa [runWrites, run] using hread
  | cons write rest ih =>
      obtain ⟨next, hwrite, hrest⟩ := accepts_cons.mp haccepts
      rw [runWrites_cons_of_ok hwrite]
      apply ih hrest
      rcases hread with hread | hmem
      · exact .inl (memory.read_write_of_ok hwrite hread)
      · rcases List.mem_cons.mp hmem with rfl | hmem
        · exact .inl (memory.read_write_self hwrite)
        · exact .inr hmem

-- Writes of what the cells hold already are accepted, and leave the very same memory.
theorem runWrites_of_read (hread : ∀ write ∈ again, memory.read write.1 = .ok write.2) :
    memory.runWrites again = (memory, again.map fun _ => .written (.ok ())) := by
  induction again with
  | nil => rfl
  | cons write rest ih =>
      rw [List.forall_mem_cons] at hread
      have hrest := ih hread.2
      simp only [runWrites] at hrest ⊢
      simp only [List.map_cons, run, step_write_same memory write.1 write.2 hread.1, hrest]

-- A write into a segment that is there is refused for its value only.
theorem step_write_cases (memory : Memory) (cell : Address) (value : Value)
    (hsegment : cell.segment.toNat < memory.segmentCount) :
    (memory.step (.write cell value)).1.segmentCount = memory.segmentCount ∧
      ((memory.step (.write cell value)).2 = .written (.ok ()) ∨ ∃ old,
        (memory.step (.write cell value)).2 = .written (.error (.conflict cell old value))) := by
  rcases memory.read_cases cell with ⟨hle, -⟩ | ⟨-, hempty | ⟨old, hold⟩⟩
  · omega
  · rw [step_write_uninitialized memory cell value hempty]
    exact ⟨segmentCount_insert memory cell value, .inl rfl⟩
  · by_cases he : old = value
    · subst he
      rw [step_write_same memory cell old hold]
      exact ⟨rfl, .inl rfl⟩
    · rw [step_write_conflict memory cell old value hold he]
      exact ⟨rfl, .inr ⟨old, rfl⟩⟩

theorem runWrites_cases
    (hsegments : ∀ write ∈ writes, write.1.segment.toNat < memory.segmentCount) :
    ∀ answer ∈ (memory.runWrites writes).2, answer = .written (.ok ()) ∨
      ∃ cell old new, answer = .written (.error (.conflict cell old new)) := by
  induction writes generalizing memory with
  | nil =>
      intro answer hmem
      cases hmem
  | cons write rest ih =>
      obtain ⟨hsegment, hrest⟩ := List.forall_mem_cons.mp hsegments
      obtain ⟨hcount, hanswer⟩ := memory.step_write_cases write.1 write.2 hsegment
      rw [← hcount] at hrest
      refine List.forall_mem_cons.mpr ⟨?_, ih hrest⟩
      exact hanswer.imp_right fun ⟨old, hconflict⟩ => ⟨_, old, _, hconflict⟩

theorem accepts_iff_not_conflicts
    (hsegments : ∀ write ∈ writes, write.1.segment.toNat < memory.segmentCount) :
    Accepts memory writes ↔ ¬ Conflicts memory writes := by
  constructor
  · rintro haccepts ⟨cell, old, new, hmem⟩
    cases haccepts _ hmem
  · intro hnone answer hmem
    rcases runWrites_cases hsegments answer hmem with hok | ⟨cell, old, new, rfl⟩
    · exact hok
    · exact absurd ⟨cell, old, new, hmem⟩ hnone

-- The order of a list of writes decides nothing. Where all are accepted they are accepted in
-- every order, the memories cannot be told apart, and any of the writes may be issued again.
-- Where one meets a conflict some write meets one in every order. Offsets are not bounded,
-- see `Segment.write`.
theorem runWrites_unordered (memory : Memory) {writes writes' : List (Address × Value)}
    (hperm : writes.Perm writes') :
    (Accepts memory writes → Accepts memory writes' ∧
      Alike (memory.runWrites writes).1 (memory.runWrites writes').1 ∧
      ∀ again, again ⊆ writes →
        (memory.runWrites writes').1.runWrites again =
          ((memory.runWrites writes').1, again.map fun _ => .written (.ok ()))) ∧
    ((∀ write ∈ writes, write.1.segment.toNat < memory.segmentCount) →
      Conflicts memory writes → Conflicts memory writes') := by
  constructor
  · intro haccepts
    obtain ⟨haccepts', halike⟩ := haccepts.perm hperm
    refine ⟨haccepts', halike, ?_⟩
    intro again hagain
    apply runWrites_of_read
    intro write hmem
    exact haccepts'.read (.inr (hperm.subset (hagain hmem)))
  · intro hsegments hconflicts
    have hsegments' : ∀ write ∈ writes', write.1.segment.toNat < memory.segmentCount :=
      fun write hmem => hsegments write (hperm.mem_iff.mpr hmem)
    apply Classical.byContradiction
    intro hnone
    have haccepts := (((accepts_iff_not_conflicts hsegments').mpr hnone).perm hperm.symm).1
    exact (accepts_iff_not_conflicts hsegments).mp haccepts hconflicts

-- A segment that grows to its length at once or in two steps, and a cell that two values are
-- meant for.
theorem runWrites_unordered_gap :
    let low : Address × Value := ({ segment := 1, offset := 0 }, .felt 8)
    let high : Address × Value := ({ segment := 1, offset := 3 }, .felt 7)
    let rival : Address × Value := ({ segment := 1, offset := 3 }, .felt 9)
    (Accepts initial [high, low, high] ∧ Accepts initial [low, high, high] ∧
      Alike (initial.runWrites [high, low, high]).1 (initial.runWrites [low, high, high]).1) ∧
    Conflicts initial [high, low, rival] ∧ Conflicts initial [rival, low, high] := by
  intro low high rival
  have haccepts : Accepts initial [high, low, high] := by
    have hanswers : (initial.runWrites [high, low, high]).2 =
        [.written (.ok ()), .written (.ok ()), .written (.ok ())] := rfl
    simp [Accepts, hanswers]
  have hconflicts : Conflicts initial [high, low, rival] := by
    have hanswers : (initial.runWrites [high, low, rival]).2 =
        [.written (.ok ()), .written (.ok ()),
          .written (.error (.conflict rival.1 (.felt 7) (.felt 9)))] := rfl
    exact ⟨rival.1, .felt 7, .felt 9, by simp [hanswers]⟩
  have hsegments : ∀ write ∈ [high, low, rival], write.1.segment.toNat < initial.segmentCount := by
    simp only [List.forall_mem_cons]
    exact ⟨by decide, by decide, by decide, nofun⟩
  obtain ⟨haccepts', halike, -⟩ :=
    (runWrites_unordered initial (.swap low high [high])).1 haccepts
  have hperm : [high, low, rival].Perm [rival, low, high] :=
    (List.reverse_perm [high, low, rival]).symm
  exact ⟨⟨haccepts, haccepts', halike⟩, hconflicts,
    (runWrites_unordered initial hperm).2 hsegments hconflicts⟩

end SymbolicOperand.Memory
