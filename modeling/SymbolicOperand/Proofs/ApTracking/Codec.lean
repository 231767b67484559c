import SymbolicOperand.ApTracking.Defs
import SymbolicOperand.Proofs.Json.Grammar

namespace SymbolicOperand

-- The values that are read as a descriptor: the array of its two words, or an object that names
-- each of them once. Other members may have any names and values, and come up more than once.
inductive Json.Describes : Json → ApTracking → Prop where
  | array (group offset : UInt64) :
      Describes (.array [ofWord group, ofWord offset]) { group, offset }
  | object {members : List (String × Json)} {group offset : UInt64}
      (hgroup : members.filter (·.1 = "group") = [("group", ofWord group)])
      (hoffset : members.filter (·.1 = "offset") = [("offset", ofWord offset)]) :
      Describes (.object members) { group, offset }

def Json.IsScalar : Json → Prop
  | null | boolean _ | number _ | string _ => True
  | array _ | object _ => False

namespace ApTracking

-- The names of the two words, in the order of their declaration.
def fields : List String :=
  ["group", "offset"]

def ofWords? (group? offset? : Option UInt64) : Option ApTracking := do
  return { group := ← group?, offset := ← offset? }

theorem ofWords?_eq_some_iff {group? offset? : Option UInt64} {tracking : ApTracking} :
    ofWords? group? offset? = some tracking ↔
      group? = some tracking.group ∧ offset? = some tracking.offset := by
  obtain ⟨group, offset⟩ := tracking
  cases group? with
  | none => simp [ofWords?]
  | some word =>
      cases offset? with
      | none => simp [ofWords?]
      | some word' => simp [ofWords?]

-- What reads and writes descriptors. It is derived from the declaration of the record over a
-- library that takes texts apart, and is given here by what it answers.
structure Codec where
  -- the word that a value is
  word? : Json → Option UInt64
  -- the descriptor that a value is
  read? : Json → Option ApTracking
  decode? : String → Option ApTracking
  encode : ApTracking → String

-- What is documented of a codec that is derived for a record, and of the numbers and the texts
-- of the library.
structure Codec.Lawful (codec : Codec) : Prop where
  -- a number without a sign, a fraction or an exponent that is in the range of a word
  word : ∀ value word, codec.word? value = some word ↔ value = .ofWord word
  -- blanks between the tokens and the way in which texts and names are escaped do not matter
  text : ∀ text value, Json.Renders text value → codec.decode? text = codec.read? value
  -- the members of an object may stand in any order
  order : ∀ members members' : List (String × Json), members.Perm members' →
    codec.read? (.object members) = codec.read? (.object members')
  -- a member that is no field is ignored
  unknown : ∀ name value members, name ∉ fields →
    codec.read? (.object ((name, value) :: members)) = codec.read? (.object members)
  -- a field that comes up again is an error
  duplicate : ∀ name value again members, name ∈ fields →
    codec.read? (.object ((name, value) :: (name, again) :: members)) = none
  -- a field has no default
  missing : ∀ name members, name ∈ fields → (∀ member ∈ members, member.1 ≠ name) →
    codec.read? (.object members) = none
  -- each field is read by the codec of its type
  record : ∀ group offset, codec.read? (.object [("group", group), ("offset", offset)]) =
    ofWords? (codec.word? group) (codec.word? offset)
  -- a sequence has the fields in the order of their declaration, all of them and no more
  sequence : ∀ group offset, codec.read? (.array [group, offset]) =
    ofWords? (codec.word? group) (codec.word? offset)
  length : ∀ items, items.length ≠ fields.length → codec.read? (.array items) = none
  scalar : ∀ value, value.IsScalar → codec.read? value = none
  -- a record is written as the object of its fields
  written : ∀ tracking, Json.Renders (codec.encode tracking)
    (.object [("group", .ofWord tracking.group), ("offset", .ofWord tracking.offset)])

-- The members of one name, moved to the front.
theorem perm_filter_append (members : List (String × Json)) (name : String) :
    members.Perm (members.filter (·.1 = name) ++ members.filter (·.1 ≠ name)) := by
  simpa using (List.filter_append_perm (·.1 = name) members).symm

namespace Codec.Lawful

variable {codec : Codec} {members : List (String × Json)} {tracking : ApTracking}

theorem read?_append_unknown (h : codec.Lawful) {others : List (String × Json)}
    (hothers : ∀ member ∈ others, member.1 ∉ fields) :
    codec.read? (.object (others ++ members)) = codec.read? (.object members) := by
  induction others with
  | nil => rfl
  | cons other others ih =>
      obtain ⟨hother, hothers⟩ := List.forall_mem_cons.mp hothers
      rw [List.cons_append, h.unknown other.1 other.2 _ hother, ih hothers]

-- An object that is read has each field, and has it once.
theorem exists_filter_eq (h : codec.Lawful) (hread : codec.read? (.object members) = some tracking)
    (name : String) (hname : name ∈ fields) :
    ∃ value, members.filter (·.1 = name) = [(name, value)] := by
  have hnamed : ∀ member ∈ members.filter (·.1 = name), member.1 = name := by
    intro member hmem
    simpa using (List.mem_filter.mp hmem).2
  cases hfound : members.filter (·.1 = name) with
  | nil =>
      have habsent : ∀ member ∈ members, member.1 ≠ name := by
        simpa using List.filter_eq_nil_iff.mp hfound
      rw [h.missing name members hname habsent] at hread
      cases hread
  | cons first more =>
      obtain ⟨firstName, value⟩ := first
      rw [hfound] at hnamed
      obtain ⟨rfl, hmore⟩ := List.forall_mem_cons.mp hnamed
      cases more with
      | nil => exact ⟨value, rfl⟩
      | cons second more =>
          -- both can be moved to the front, where they are refused
          obtain ⟨secondName, again⟩ := second
          obtain rfl : secondName = firstName := hmore _ List.mem_cons_self
          have hperm := perm_filter_append members secondName
          rw [hfound] at hperm
          rw [h.order _ _ hperm, List.cons_append, List.cons_append,
            h.duplicate secondName value again _ hname] at hread
          cases hread

-- Wherever the two fields stand among the other members, they are read as if they stood alone.
theorem read?_of_filter_eq (h : codec.Lawful) {group offset : Json}
    (hgroup : members.filter (·.1 = "group") = [("group", group)])
    (hoffset : members.filter (·.1 = "offset") = [("offset", offset)]) :
    codec.read? (.object members) = ofWords? (codec.word? group) (codec.word? offset) := by
  let rest := members.filter (·.1 ≠ "group")
  let others := rest.filter (·.1 ≠ "offset")
  have hrest : rest.filter (·.1 = "offset") = [("offset", offset)] := by
    rw [List.filter_filter, ← hoffset]
    apply List.filter_congr
    intro member _
    by_cases hname : member.1 = "offset"
    · simp [hname]
    · simp [hname]
  have hfirst : members.Perm (("group", group) :: rest) := by
    have hperm := perm_filter_append members "group"
    rwa [hgroup] at hperm
  have hsecond : rest.Perm (("offset", offset) :: others) := by
    have hperm := perm_filter_append rest "offset"
    rwa [hrest] at hperm
  have hlast : ([("group", group), ("offset", offset)] ++ others).Perm
      (others ++ [("group", group), ("offset", offset)]) := List.perm_append_comm
  have hothers : ∀ member ∈ others, member.1 ∉ fields := by
    intro member hmem
    obtain ⟨hmem, hoffset⟩ := List.mem_filter.mp hmem
    obtain ⟨-, hgroup⟩ := List.mem_filter.mp hmem
    simp only [fields, List.mem_cons, List.not_mem_nil, or_false, not_or]
    exact ⟨of_decide_eq_true hgroup, of_decide_eq_true hoffset⟩
  rw [h.order _ _ (hfirst.trans ((hsecond.cons _).trans hlast)), h.read?_append_unknown hothers,
    h.record]

theorem read?_object_eq_some_iff (h : codec.Lawful) :
    codec.read? (.object members) = some tracking ↔
      members.filter (·.1 = "group") = [("group", .ofWord tracking.group)] ∧
        members.filter (·.1 = "offset") = [("offset", .ofWord tracking.offset)] := by
  constructor
  · intro hread
    obtain ⟨group, hgroup⟩ := h.exists_filter_eq hread "group" (by decide)
    obtain ⟨offset, hoffset⟩ := h.exists_filter_eq hread "offset" (by decide)
    rw [h.read?_of_filter_eq hgroup hoffset, ofWords?_eq_some_iff, h.word, h.word] at hread
    obtain ⟨rfl, rfl⟩ := hread
    exact ⟨hgroup, hoffset⟩
  · rintro ⟨hgroup, hoffset⟩
    rw [h.read?_of_filter_eq hgroup hoffset, ofWords?_eq_some_iff, h.word, h.word]
    exact ⟨rfl, rfl⟩

theorem read?_array_eq_some_iff (h : codec.Lawful) {items : List Json} :
    codec.read? (.array items) = some tracking ↔
      items = [.ofWord tracking.group, .ofWord tracking.offset] := by
  match items with
  | [group, offset] =>
      rw [h.sequence, ofWords?_eq_some_iff, h.word, h.word]
      simp
  | [] => simp [h.length [] (by decide)]
  | [_] => simp [h.length [_] (by simp [fields])]
  | _ :: _ :: _ :: _ => simp [h.length (_ :: _ :: _ :: _) (by simp [fields])]

-- A value is read as the descriptor that it describes, and no other value is read.
theorem read?_eq_some_iff (h : codec.Lawful) {value : Json} :
    codec.read? value = some tracking ↔ value.Describes tracking := by
  cases value with
  | array items =>
      rw [h.read?_array_eq_some_iff]
      constructor
      · rintro rfl
        exact .array tracking.group tracking.offset
      · rintro ⟨⟩
        rfl
  | object members =>
      rw [h.read?_object_eq_some_iff]
      constructor
      · rintro ⟨hgroup, hoffset⟩
        exact .object hgroup hoffset
      · rintro ⟨⟩
        exact ⟨‹_›, ‹_›⟩
  | _ =>
      rw [h.scalar]
      · exact ⟨nofun, nofun⟩
      · exact trivial

end Codec.Lawful

end ApTracking

end SymbolicOperand
