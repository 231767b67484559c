import SymbolicOperand.Json.Number
import SymbolicOperand.Json.Text

namespace SymbolicOperand.Json

inductive Token where
  | openArray
  | closeArray
  | openObject
  | closeObject
  | comma
  | colon
  | null
  | boolean (value : Bool)
  | number (literal : Number)
  -- without a content when an escape names half of a surrogate pair
  | string (content? : Option String)
  deriving DecidableEq, Repr

def isBlank (c : Char) : Bool :=
  c = ' ' || c = '\t' || c = '\n' || c = '\r'

def string? (text : List Char) : Option (Token × List Char) := do
  let (points, rest) ← codePoints? text
  return (.string ((characters? points).map String.ofList), rest)

-- The token that a text begins with, and what follows it.
def token? : List Char → Option (Token × List Char)
  | '[' :: rest => some (.openArray, rest)
  | ']' :: rest => some (.closeArray, rest)
  | '\x7b' :: rest => some (.openObject, rest)
  | '\x7d' :: rest => some (.closeObject, rest)
  | ',' :: rest => some (.comma, rest)
  | ':' :: rest => some (.colon, rest)
  | 'n' :: 'u' :: 'l' :: 'l' :: rest => some (.null, rest)
  | 't' :: 'r' :: 'u' :: 'e' :: rest => some (.boolean true, rest)
  | 'f' :: 'a' :: 'l' :: 's' :: 'e' :: rest => some (.boolean false, rest)
  | '"' :: rest => string? rest
  | '-' :: rest => (number? true rest).map fun (literal, rest) => (.number literal, rest)
  | text => (number? false text).map fun (literal, rest) => (.number literal, rest)

-- Every token takes at least one character, which ends the loop below.
theorem length_of_token? {text rest : List Char} {token : Token}
    (h : token? text = some (token, rest)) : rest.length < text.length := by
  unfold token? at h
  split at h
  case h_10 =>
    simp only [string?, Option.bind_eq_bind, Option.bind_eq_some_iff, Prod.exists] at h
    obtain ⟨_, _, hpoints, h⟩ := h
    simp only [Option.pure_def, Option.some.injEq, Prod.mk.injEq] at h
    have := length_of_codePoints? hpoints
    simp only [List.length_cons, ← h.2]
    omega
  case h_11 =>
    obtain ⟨_, hnumber, h⟩ := Option.map_eq_some_iff.mp h
    simp only [Prod.mk.injEq] at h
    have := length_of_number? hnumber
    simp only [List.length_cons, ← h.2]
    omega
  case h_12 =>
    obtain ⟨_, hnumber, h⟩ := Option.map_eq_some_iff.mp h
    simp only [Prod.mk.injEq] at h
    have := length_of_number? hnumber
    rw [← h.2]
    omega
  all_goals
    simp only [Option.some.injEq, Prod.mk.injEq] at h
    simp only [List.length_cons, ← h.2]
    omega

-- Blanks may stand before, between and after tokens.
def tokens? (text : List Char) : Option (List Token) :=
  match text with
  | [] => some []
  | c :: tail =>
      if isBlank c then
        tokens? tail
      else
        match _h : token? (c :: tail) with
        | none => none
        | some (token, rest) => (tokens? rest).map (token :: ·)
termination_by text.length
decreasing_by
  · simp
  · exact length_of_token? _h

end SymbolicOperand.Json
