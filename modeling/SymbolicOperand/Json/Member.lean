import SymbolicOperand.Json.Skip
import SymbolicOperand.Word

namespace SymbolicOperand.Json

-- The word that a literal writes as digits alone.
def Number.toWord? (literal : Number) : Option UInt64 :=
  if literal.negative ∨ literal.tail ≠ [] then none else Word.ofNat? literal.whole

-- What is kept of a member of an object: its name, and its value if that is a word.
structure Member where
  name : String
  word? : Option UInt64
  deriving DecidableEq, Repr

-- The word that a value beginning here consists of.
def word? : List Token → Option UInt64
  | .number literal :: _ => literal.toWord?
  | _ => none

-- The members of an object that is open, up to the end of the text. Every name
-- must be a text. The values may be anything.
def members? (tokens : List Token) : Option (List Member) :=
  match tokens with
  | .string (some name) :: .colon :: value =>
      match _h : skipValue [] value with
      | some [.closeObject] => some [⟨name, word? value⟩]
      | some (.comma :: rest) => (members? rest).map (⟨name, word? value⟩ :: ·)
      | _ => none
  | _ => none
termination_by tokens.length
decreasing_by
  have := length_of_skipValue _h
  simp only [List.length_cons] at this ⊢
  omega

-- The word of the only member of a name.
def wordNamed? (name : String) (members : List Member) : Option UInt64 :=
  match members.filter (·.name = name) with
  | [member] => member.word?
  | _ => none

end SymbolicOperand.Json
