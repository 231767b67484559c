import SymbolicOperand.Json.Member
import SymbolicOperand.Proofs.Json.Value

namespace SymbolicOperand.Json

theorem Number.toWord?_eq_some_iff {literal : Number} {word : UInt64} :
    literal.toWord? = some word ↔
      literal = { negative := false, whole := word.toNat, tail := [] } := by
  obtain ⟨negative, whole, tail⟩ := literal
  unfold toWord?
  split
  · next h =>
      simp only [reduceCtorEq, Number.mk.injEq, false_iff]
      rintro ⟨rfl, rfl, rfl⟩
      simp at h
  · next h =>
      simp only [not_or, Bool.not_eq_true, ne_eq, Decidable.not_not] at h
      obtain ⟨rfl, rfl⟩ := h
      simp only [Word.ofNat?_eq_some_iff, Number.mk.injEq, true_and, and_true]
      exact eq_comm

def toWord? : Json → Option UInt64
  | number literal => literal.toWord?
  | _ => none

theorem toWord?_eq_some_iff {value : Json} {word : UInt64} :
    value.toWord? = some word ↔ value = ofWord word := by
  cases value with
  | number literal =>
      simp only [toWord?, Number.toWord?_eq_some_iff, ofWord, Json.number.injEq]
  | _ => exact ⟨nofun, nofun⟩

theorem word?_tokens_append (value : Json) (rest : List Token) :
    word? (value.tokens ++ rest) = value.toWord? := by
  cases value with
  | array items => cases items <;> rfl
  | object members => cases members <;> rfl
  | _ => rfl

theorem skipValue_nil_tokens_append (value : Json) (rest : List Token) :
    skipValue [] (value.tokens ++ rest) = some rest := by
  rw [skipValue_tokens_append, skipRest]

theorem members?_closed (name : String) (value : Json) :
    members? (.string (some name) :: .colon :: (value.tokens ++ [.closeObject])) =
      some [⟨name, value.toWord?⟩] := by
  have hskip := skipValue_nil_tokens_append value [.closeObject]
  rw [members?]
  split
  · rw [word?_tokens_append]
  · next hcomma =>
      rw [hskip] at hcomma
      cases hcomma
  · next hclose _ => exact absurd hskip hclose

theorem members?_comma (name : String) (value : Json) (rest : List Token) :
    members? (.string (some name) :: .colon :: (value.tokens ++ .comma :: rest)) =
      (members? rest).map (⟨name, value.toWord?⟩ :: ·) := by
  have hskip := skipValue_nil_tokens_append value (.comma :: rest)
  rw [members?]
  split
  · next hclose =>
      rw [hskip] at hclose
      cases hclose
  · next hcomma =>
      rw [hskip] at hcomma
      cases hcomma
      rw [word?_tokens_append]
  · next _ hcomma => exact absurd hskip (hcomma _)

theorem members?_closeObject (rest : List Token) : members? (.closeObject :: rest) = none := by
  rw [members?]
  rintro _ _ ⟨⟩

-- What is kept of the members of an object.
def entries (members : List (String × Json)) : List Member :=
  members.map fun (name, value) => ⟨name, value.toWord?⟩

-- An object is read to its close.
theorem members?_append (name : String) (value : Json) (members : List (String × Json)) :
    members? (.string (some name) :: .colon :: (value.tokens ++ moreMembers members)) =
      some (entries ((name, value) :: members)) := by
  induction members generalizing name value with
  | nil => exact members?_closed name value
  | cons member members ih =>
      rw [moreMembers, members?_comma, ih member.1 member.2]
      rfl

-- The only member of a name is found in whichever place it stands.
theorem wordNamed?_perm {members members' : List Member} (hperm : members.Perm members')
    (name : String) : wordNamed? name members = wordNamed? name members' := by
  have hfound := hperm.filter (·.name = name)
  unfold wordNamed?
  generalize members.filter (·.name = name) = found at hfound
  generalize members'.filter (·.name = name) = found' at hfound
  match found, found' with
  | [], _ => rw [← hfound.nil_eq]
  | [member], _ => rw [List.singleton_perm.mp hfound]
  | _ :: _ :: _, [] => simp at hfound
  | _ :: _ :: _, [_] => simp at hfound
  | _ :: _ :: _, _ :: _ :: _ => rfl

theorem wordNamed?_cons_of_ne {name : String} {member : Member} (hne : member.name ≠ name)
    (members : List Member) : wordNamed? name (member :: members) = wordNamed? name members := by
  rw [wordNamed?, List.filter_cons_of_neg (by simpa using hne)]
  rfl

theorem wordNamed?_cons_cons_self (name : String) (first second : Option UInt64)
    (members : List Member) :
    wordNamed? name (⟨name, first⟩ :: ⟨name, second⟩ :: members) = none := by
  rw [wordNamed?, List.filter_cons_of_pos (by simp), List.filter_cons_of_pos (by simp)]

theorem wordNamed?_of_forall_ne {name : String} {members : List Member}
    (hne : ∀ member ∈ members, member.name ≠ name) : wordNamed? name members = none := by
  rw [wordNamed?, List.filter_eq_nil_iff.mpr (by simpa using hne)]

end SymbolicOperand.Json
