import SymbolicOperand.Memory.Defs

namespace SymbolicOperand

-- Setting an entry to what it is already changes nothing.
theorem setIfInBounds_of_getElem? {α : Type} {entries : Array α} {index : Nat} {entry : α}
    (hentry : entries[index]? = some entry) : entries.setIfInBounds index entry = entries := by
  obtain ⟨hlt, rfl⟩ := Array.getElem?_eq_some_iff.mp hentry
  rw [Array.setIfInBounds_def, dif_pos hlt, Array.set_getElem_self]

namespace Segment

@[simp]
theorem get?_empty (offset : UInt64) : ({} : Segment).get? offset = none := by
  simp [get?]

@[simp]
theorem length_empty : ({} : Segment).length = 0 := rfl

variable (segment : Segment)

theorem get?_eq_some_iff {offset : UInt64} {value : Value} :
    segment.get? offset = some value ↔ segment.cells[offset.toNat]? = some (some value) := by
  rw [get?, Option.join_eq_some_iff]

theorem lt_length_of_get? {offset : UInt64} {value : Value}
    (hget : segment.get? offset = some value) : offset.toNat < segment.length := by
  rw [get?_eq_some_iff] at hget
  exact (Array.getElem?_eq_some_iff.mp hget).1

@[simp]
theorem length_resize (length : Nat) : (segment.resize length).length = length := by
  simp only [resize, Segment.length, Array.size_rightpad, Array.size_shrink]
  omega

-- The added cells are unset, so growing exposes no value that was not there.
theorem get?_resize {length : Nat} (hlength : segment.length ≤ length) (offset : UInt64) :
    (segment.resize length).get? offset = segment.get? offset := by
  have hkept : segment.cells.shrink length = segment.cells := by
    rw [Array.shrink_eq_take, Array.take_eq_extract]
    exact Array.extract_eq_self_of_le hlength
  simp only [resize, get?, hkept, Array.rightpad, Array.getElem?_append, Array.getElem?_replicate]
  by_cases hold : offset.toNat < segment.cells.size
  · rw [if_pos hold]
  · rw [if_neg hold, Array.getElem?_eq_none (Nat.le_of_not_lt hold)]
    split <;> rfl

theorem cover_of_lt {offset : UInt64} (hlt : offset.toNat < segment.length) :
    segment.cover offset = segment :=
  if_neg (Nat.not_le_of_lt hlt)

theorem length_cover (offset : UInt64) :
    (segment.cover offset).length = max segment.length (offset.toNat + 1) := by
  unfold cover
  split
  · rw [length_resize]
    omega
  · omega

theorem get?_cover (offset other : UInt64) :
    (segment.cover offset).get? other = segment.get? other := by
  unfold cover
  split
  · next hle => exact segment.get?_resize (Nat.le_add_right_of_le hle) other
  · rfl

@[simp]
theorem length_set (offset : UInt64) (value : Value) :
    (segment.set offset value).length = segment.length := by
  simp [set, length]

theorem get?_set {offset : UInt64} (hlt : offset.toNat < segment.length) (value : Value)
    (other : UInt64) :
    (segment.set offset value).get? other =
      if other = offset then some value else segment.get? other := by
  unfold get? set
  by_cases he : other = offset
  · subst he
    rw [if_pos rfl, Array.getElem?_setIfInBounds_self]
    exact congrArg Option.join (if_pos hlt)
  · have hne : offset.toNat ≠ other.toNat := fun h => he (UInt64.toNat_inj.mp h.symm)
    rw [if_neg he, Array.getElem?_setIfInBounds_ne hne]

theorem set_of_get? {offset : UInt64} {value : Value} (hget : segment.get? offset = some value) :
    segment.set offset value = segment :=
  congrArg Segment.mk (setIfInBounds_of_getElem? (segment.get?_eq_some_iff.mp hget))

-- What an accepted write leaves.
def insert (segment : Segment) (offset : UInt64) (value : Value) : Segment :=
  (segment.cover offset).set offset value

theorem get?_insert (offset other : UInt64) (value : Value) :
    (segment.insert offset value).get? other =
      if other = offset then some value else segment.get? other := by
  have hlt : offset.toNat < (segment.cover offset).length := by
    rw [length_cover]
    omega
  rw [insert, get?_set _ hlt, get?_cover]

theorem length_insert (offset : UInt64) (value : Value) :
    (segment.insert offset value).length = max segment.length (offset.toNat + 1) := by
  rw [insert, length_set, length_cover]

-- A cell with a value is in the segment, so nothing is grown where one is found, and the
-- segment is the very same afterwards. The cells that growing adds are not refused.
theorem write_eq (cell : Address) (value : Value) :
    segment.write cell value =
      match segment.get? cell.offset with
      | some old => (segment, if old = value then .ok () else .error (.conflict cell old value))
      | none => (segment.insert cell.offset value, .ok ()) := by
  simp only [write, get?_cover]
  cases hget : segment.get? cell.offset with
  | none => rfl
  | some old =>
      simp only [segment.cover_of_lt (segment.lt_length_of_get? hget)]
      by_cases he : old = value
      · subst he
        simp [segment.set_of_get? hget]
      · simp [he]

end Segment

namespace Memory

variable (memory : Memory)

theorem segment?_eq_none_iff (index : UInt64) :
    memory.segment? index = none ↔ memory.segmentCount ≤ index.toNat := by
  simp [segment?, segmentCount]

theorem segment?_initial (index : UInt64) :
    initial.segment? index = if index.toNat < 2 then some {} else none := by
  unfold segment? initial
  match index.toNat with
  | 0 => rfl
  | 1 => rfl
  | n + 2 => simp

theorem read_initial (cell : Address) :
    initial.read cell =
      if cell.segment.toNat < 2 then .error (.uninitialized cell)
      else .error (.unknownSegment cell.segment) := by
  simp only [read, segment?_initial]
  by_cases hindex : cell.segment.toNat < 2
  · simp [hindex]
  · simp [hindex]

@[simp]
theorem segmentCount_allocate : memory.allocate.1.segmentCount = memory.segmentCount + 1 := by
  simp [allocate, segmentCount]

theorem segment?_allocate (index : UInt64) :
    memory.allocate.1.segment? index =
      if index.toNat = memory.segmentCount then some {} else memory.segment? index := by
  unfold allocate segment? segmentCount
  exact Array.getElem?_push

theorem read_allocate (cell : Address) :
    memory.allocate.1.read cell =
      if cell.segment.toNat = memory.segmentCount then .error (.uninitialized cell)
      else memory.read cell := by
  simp only [read, segment?_allocate]
  by_cases hindex : cell.segment.toNat = memory.segmentCount
  · simp [hindex]
  · simp [hindex]

theorem segmentLength?_allocate (index : UInt64) :
    memory.allocate.1.segmentLength? index =
      if index.toNat = memory.segmentCount then some 0 else memory.segmentLength? index := by
  simp only [segmentLength?, segment?_allocate]
  by_cases hindex : index.toNat = memory.segmentCount
  · simp [hindex]
  · simp [hindex]

-- Store a value whether or not the cell holds one. A write that is accepted at a
-- cell without a value does this.
def insert (cell : Address) (value : Value) : Memory :=
  match memory.segment? cell.segment with
  | none => memory
  | some segment =>
      { segments :=
          memory.segments.setIfInBounds cell.segment.toNat (segment.insert cell.offset value) }

@[simp]
theorem segmentCount_insert (cell : Address) (value : Value) :
    (memory.insert cell value).segmentCount = memory.segmentCount := by
  unfold insert
  split
  · rfl
  · simp [segmentCount]

theorem segment?_insert (cell : Address) (value : Value) (index : UInt64) :
    (memory.insert cell value).segment? index =
      (memory.segment? index).map fun segment =>
        if index = cell.segment then segment.insert cell.offset value else segment := by
  unfold insert
  split
  · next h =>
      by_cases hindex : index = cell.segment
      · simp [hindex, h]
      · simp [hindex]
  · next segment h =>
      by_cases hindex : index = cell.segment
      · obtain ⟨hlt, hfound⟩ := Array.getElem?_eq_some_iff.mp h
        simp [segment?, hindex, hlt, hfound]
      · have hne : cell.segment.toNat ≠ index.toNat := fun he => hindex (UInt64.toNat_inj.mp he.symm)
        simp [segment?, hindex, hne]

theorem read_insert (cell : Address) (value : Value)
    (hsegment : cell.segment.toNat < memory.segmentCount) (other : Address) :
    (memory.insert cell value).read other = if other = cell then .ok value else memory.read other := by
  simp only [read, segment?_insert]
  by_cases hindex : other.segment = cell.segment
  · cases hfound : memory.segment? other.segment with
    | none =>
        rw [segment?_eq_none_iff, hindex] at hfound
        omega
    | some segment =>
        simp only [hindex, Option.map_some, if_true, Segment.get?_insert]
        by_cases hoffset : other.offset = cell.offset
        · have he : other = cell := by cases other; cases cell; simp_all
          simp [he]
        · have he : other ≠ cell := fun he => hoffset (congrArg Address.offset he)
          simp [hoffset, he]
  · have he : other ≠ cell := fun he => hindex (congrArg Address.segment he)
    simp [hindex, he]

theorem segmentLength?_insert (cell : Address) (value : Value) (index : UInt64) :
    (memory.insert cell value).segmentLength? index =
      (memory.segmentLength? index).map fun length =>
        if index = cell.segment then max length (cell.offset.toNat + 1) else length := by
  simp only [segmentLength?, segment?_insert, Option.map_map]
  congr 1
  funext segment
  by_cases hindex : index = cell.segment
  · simp [hindex, Segment.length_insert]
  · simp [hindex]

-- A write is decided by what a read of the same cell answers. A refused one leaves the
-- very same memory.
theorem write_eq (cell : Address) (value : Value) :
    memory.write cell value =
      match memory.read cell with
      | .ok old => (memory, if old = value then .ok () else .error (.conflict cell old value))
      | .error (.uninitialized _) => (memory.insert cell value, .ok ())
      | .error cause => (memory, .error cause) := by
  unfold write read insert
  cases hsegment : memory.segment? cell.segment with
  | none => rfl
  | some segment =>
      have hsame : memory.segments.setIfInBounds cell.segment.toNat segment = memory.segments :=
        setIfInBounds_of_getElem? hsegment
      dsimp only
      rw [Segment.write_eq]
      cases segment.get? cell.offset with
      | none => rfl
      | some old => simp only [hsame]

theorem read_cases (cell : Address) :
    (memory.segmentCount ≤ cell.segment.toNat ∧
        memory.read cell = .error (.unknownSegment cell.segment)) ∨
      (cell.segment.toNat < memory.segmentCount ∧
        (memory.read cell = .error (.uninitialized cell) ∨ ∃ value, memory.read cell = .ok value)) := by
  unfold read
  split
  · next h => exact .inl ⟨(memory.segment?_eq_none_iff _).mp h, rfl⟩
  · next segment h =>
      have hlt : cell.segment.toNat < memory.segmentCount := (Array.getElem?_eq_some_iff.mp h).1
      refine .inr ⟨hlt, ?_⟩
      cases segment.get? cell.offset with
      | none => exact .inl rfl
      | some value => exact .inr ⟨value, rfl⟩

theorem read_error_cases {cell : Address} {cause : MemoryError}
    (hread : memory.read cell = .error cause) :
    (memory.segmentCount ≤ cell.segment.toNat ∧ cause = .unknownSegment cell.segment) ∨
      cause = .uninitialized cell := by
  rcases memory.read_cases cell with ⟨hle, he⟩ | ⟨-, he | ⟨value, he⟩⟩
  · rw [he] at hread
    exact .inl ⟨hle, (Except.error.inj hread).symm⟩
  · rw [he] at hread
    exact .inr (Except.error.inj hread).symm
  · rw [he] at hread
    cases hread

theorem write_eq_ok_iff (cell : Address) (value : Value) (next : Memory) :
    memory.write cell value = (next, .ok ()) ↔
      (memory.read cell = .ok value ∧ next = memory) ∨
        (memory.read cell = .error (.uninitialized cell) ∧ next = memory.insert cell value) := by
  rw [write_eq]
  rcases memory.read_cases cell with ⟨-, hread⟩ | ⟨-, hread | ⟨old, hread⟩⟩
  · simp [hread]
  · simp [hread, eq_comm]
  · by_cases he : old = value
    · simp [hread, he, eq_comm]
    · simp [hread, he]

-- A write is accepted, or it leaves the memory as it was.
theorem write_cases (cell : Address) (value : Value) :
    (∃ next, memory.write cell value = (next, .ok ())) ∨
      ∃ cause, memory.write cell value = (memory, .error cause) := by
  rw [write_eq]
  rcases memory.read_cases cell with ⟨-, hread⟩ | ⟨-, hread | ⟨old, hread⟩⟩
  · exact .inr ⟨.unknownSegment cell.segment, by rw [hread]⟩
  · exact .inl ⟨memory.insert cell value, by rw [hread]⟩
  · by_cases he : old = value
    · exact .inl ⟨memory, by simp [hread, he]⟩
    · exact .inr ⟨.conflict cell old value, by simp [hread, he]⟩

theorem segment_lt_of_read (cell : Address)
    (hread : memory.read cell ≠ .error (.unknownSegment cell.segment)) :
    cell.segment.toNat < memory.segmentCount := by
  rcases memory.read_cases cell with ⟨-, hunknown⟩ | ⟨hlt, -⟩
  · exact absurd hunknown hread
  · exact hlt

theorem read_allocate_of_ok {cell : Address} {value : Value} (hread : memory.read cell = .ok value) :
    memory.allocate.1.read cell = .ok value := by
  have hlt := memory.segment_lt_of_read cell (by simp [hread])
  rw [read_allocate, if_neg (Nat.ne_of_lt hlt), hread]

theorem read_insert_of_ok (cell : Address) (value : Value)
    (hempty : memory.read cell = .error (.uninitialized cell)) {other : Address} {old : Value}
    (hread : memory.read other = .ok old) : (memory.insert cell value).read other = .ok old := by
  have hlt := memory.segment_lt_of_read cell (by simp [hempty])
  have hne : other ≠ cell := by
    rintro rfl
    simp [hempty] at hread
  rw [read_insert memory cell value hlt, if_neg hne, hread]

theorem read_write_self {cell : Address} {value : Value} {next : Memory}
    (hwrite : memory.write cell value = (next, .ok ())) : next.read cell = .ok value := by
  rcases (memory.write_eq_ok_iff cell value next).mp hwrite with ⟨hread, rfl⟩ | ⟨hread, rfl⟩
  · exact hread
  · have hlt := memory.segment_lt_of_read cell (by simp [hread])
    rw [read_insert memory cell value hlt, if_pos rfl]

-- What is stored stays, whether the write is accepted or not.
theorem read_write_of_ok {cell other : Address} {value old : Value} {next : Memory}
    {result : Except MemoryError Unit} (hwrite : memory.write cell value = (next, result))
    (hread : memory.read other = .ok old) : next.read other = .ok old := by
  rcases memory.write_cases cell value with ⟨grown, hok⟩ | ⟨cause, herror⟩
  · obtain rfl : grown = next := congrArg Prod.fst (hok.symm.trans hwrite)
    rcases (memory.write_eq_ok_iff cell value grown).mp hok with ⟨-, rfl⟩ | ⟨hempty, rfl⟩
    · exact hread
    · exact memory.read_insert_of_ok cell value hempty hread
  · obtain rfl : memory = next := congrArg Prod.fst (herror.symm.trans hwrite)
    exact hread

theorem segmentCount_write (cell : Address) (value : Value) :
    (memory.write cell value).1.segmentCount = memory.segmentCount := by
  rcases memory.write_cases cell value with ⟨next, hwrite⟩ | ⟨cause, hwrite⟩
  · rw [hwrite]
    rcases (memory.write_eq_ok_iff cell value next).mp hwrite with ⟨-, rfl⟩ | ⟨-, rfl⟩
    · rfl
    · exact segmentCount_insert memory cell value
  · rw [hwrite]

end Memory

end SymbolicOperand
