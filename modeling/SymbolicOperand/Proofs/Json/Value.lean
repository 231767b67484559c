import SymbolicOperand.Json.Skip
import SymbolicOperand.Proofs.Json.Token

namespace SymbolicOperand.Json

theorem followsNumber_moreItems (items : List Json) (rest : List Token) :
    ∀ token ∈ (moreItems items ++ rest).head?, token.FollowsNumber := by
  cases items with
  | nil =>
      rintro token ⟨⟩
      trivial
  | cons item items =>
      rintro token ⟨⟩
      trivial

theorem followsNumber_moreMembers (members : List (String × Json)) (rest : List Token) :
    ∀ token ∈ (moreMembers members ++ rest).head?, token.FollowsNumber := by
  cases members with
  | nil =>
      rintro token ⟨⟩
      trivial
  | cons member members =>
      rintro token ⟨⟩
      trivial

mutual

-- A number in a value is followed by a comma or by a close, if the value itself is.
theorem separated_tokens_append (value : Json) {rest : List Token} (hrest : Separated rest)
    (hfollows : ∀ token ∈ rest.head?, token.FollowsNumber) : Separated (value.tokens ++ rest) := by
  cases value with
  | null => exact hrest
  | boolean value => exact hrest
  | number literal => exact ⟨hfollows, hrest⟩
  | string content => exact hrest
  | array items =>
      cases items with
      | nil => exact hrest
      | cons item items =>
          simp only [tokens, List.cons_append, List.append_assoc, Separated]
          exact separated_tokens_append item (separated_moreItems_append items hrest)
            (followsNumber_moreItems items rest)
  | object members =>
      cases members with
      | nil => exact hrest
      | cons member members =>
          simp only [tokens, List.cons_append, List.append_assoc, Separated]
          exact separated_tokens_append member.2 (separated_moreMembers_append members hrest)
            (followsNumber_moreMembers members rest)

theorem separated_moreItems_append (items : List Json) {rest : List Token}
    (hrest : Separated rest) : Separated (moreItems items ++ rest) := by
  cases items with
  | nil => exact hrest
  | cons item items =>
      simp only [moreItems, List.cons_append, List.append_assoc, Separated]
      exact separated_tokens_append item (separated_moreItems_append items hrest)
        (followsNumber_moreItems items rest)

theorem separated_moreMembers_append (members : List (String × Json)) {rest : List Token}
    (hrest : Separated rest) : Separated (moreMembers members ++ rest) := by
  cases members with
  | nil => exact hrest
  | cons member members =>
      simp only [moreMembers, List.cons_append, List.append_assoc, Separated]
      exact separated_tokens_append member.2 (separated_moreMembers_append members hrest)
        (followsNumber_moreMembers members rest)

end

theorem Renders.tokens? {text : String} {value : Json} (h : Renders text value) :
    Json.tokens? text.toList = some value.tokens := by
  have hseparated : Separated (value.tokens ++ []) := separated_tokens_append value trivial nofun
  rw [List.append_nil] at hseparated
  exact SpellsTokens.tokens? h hseparated

-- No value begins with a close, so that an array that goes on is told from an empty one.
theorem skipValue_openArray (enclosing : List Bracket) (item : Json) (rest : List Token) :
    skipValue enclosing (.openArray :: (item.tokens ++ rest)) =
      skipValue (.array :: enclosing) (item.tokens ++ rest) := by
  cases item with
  | array items => cases items <;> rfl
  | object members => cases members <;> rfl
  | _ => rfl

mutual

-- A value is passed over as a whole, whatever it is nested in.
theorem skipValue_tokens_append (value : Json) (enclosing : List Bracket) (rest : List Token) :
    skipValue enclosing (value.tokens ++ rest) = skipRest enclosing rest := by
  cases value with
  | null => rw [tokens, List.cons_append, List.nil_append, skipValue]
  | boolean value => rw [tokens, List.cons_append, List.nil_append, skipValue]
  | number literal => rw [tokens, List.cons_append, List.nil_append, skipValue]
  | string content => rw [tokens, List.cons_append, List.nil_append, skipValue]
  | array items =>
      cases items with
      | nil => rw [tokens, List.cons_append, List.cons_append, List.nil_append, skipValue]
      | cons item items =>
          rw [tokens, List.cons_append, List.append_assoc, skipValue_openArray,
            skipValue_tokens_append item, skipRest_moreItems_append items]
  | object members =>
      cases members with
      | nil => rw [tokens, List.cons_append, List.cons_append, List.nil_append, skipValue]
      | cons member members =>
          rw [tokens, List.cons_append, List.cons_append, List.cons_append, List.append_assoc,
            skipValue, skipValue_tokens_append member.2, skipRest_moreMembers_append members]

theorem skipRest_moreItems_append (items : List Json) (enclosing : List Bracket)
    (rest : List Token) :
    skipRest (.array :: enclosing) (moreItems items ++ rest) = skipRest enclosing rest := by
  cases items with
  | nil => rw [moreItems, List.cons_append, List.nil_append, skipRest]
  | cons item items =>
      rw [moreItems, List.cons_append, List.append_assoc, skipRest, skipValue_tokens_append item,
        skipRest_moreItems_append items]

theorem skipRest_moreMembers_append (members : List (String × Json))
    (enclosing : List Bracket) (rest : List Token) :
    skipRest (.object :: enclosing) (moreMembers members ++ rest) = skipRest enclosing rest := by
  cases members with
  | nil => rw [moreMembers, List.cons_append, List.nil_append, skipRest]
  | cons member members =>
      rw [moreMembers, List.cons_append, List.cons_append, List.cons_append, List.append_assoc,
        skipRest, skipValue_tokens_append member.2, skipRest_moreMembers_append members]

end

end SymbolicOperand.Json
