import SymbolicOperand.Proofs.Json.Number
import SymbolicOperand.Proofs.Json.Text

namespace SymbolicOperand.Json

theorem SpellsMagnitude.head? {text : List Char} {negative : Bool} {literal : Number}
    (h : SpellsMagnitude text negative literal) : ∃ c ∈ text.head?, c.isDigit := by
  cases h with
  | @mk whole _ _ _ hwhole _ _ =>
      cases hwhole with
      | zero => exact ⟨'0', rfl, by decide⟩
      | digits hdigits _ =>
          obtain ⟨hne, hall⟩ := hdigits
          cases whole with
          | nil => exact absurd rfl hne
          | cons c tail => exact ⟨c, rfl, hall c List.mem_cons_self⟩

theorem token?_of_digit {text : List Char} {c : Char} (hhead : c ∈ text.head?)
    (hdigit : c.isDigit) :
    token? text = (number? false text).map fun (literal, rest) => (.number literal, rest) := by
  rw [token?]
  all_goals
    rintro rest rfl
    cases hhead
    exact absurd hdigit (by decide)

theorem string?_append {text : List Char} {points : List Nat} (hpoints : SpellsPoints text points)
    (rest : List Char) :
    string? (text ++ '"' :: rest) =
      some (.string ((characters? points).map String.ofList), rest) := by
  have hread : codePoints? (text ++ '"' :: rest) = some (points, rest) :=
    codePoints?_eq_some_iff.mpr ⟨text, hpoints, rfl⟩
  simp only [string?, hread, Option.bind_eq_bind, Option.bind_some, Option.pure_def]

-- A token is read whole. What follows matters to a number only.
theorem token?_append {text rest : List Char} {token : Token} (h : SpellsToken text token)
    (hrest : ∀ literal, token = .number literal → EndsNumber rest) :
    token? (text ++ rest) = some (token, rest) := by
  cases h with
  | positive hmagnitude =>
      obtain ⟨c, hhead, hdigit⟩ := hmagnitude.head?
      have hhead' : (text ++ rest).head? = some c := by
        rw [List.head?_append, Option.mem_def.mp hhead, Option.some_or]
      rw [token?_of_digit hhead' hdigit, number?_append hmagnitude (hrest _ rfl)]
      rfl
  | negative hmagnitude =>
      simp only [List.cons_append, token?, number?_append hmagnitude (hrest _ rfl), Option.map_some]
  | @string text points content hpoints hcontent =>
      simp only [List.cons_append, List.append_assoc, List.nil_append, token?,
        string?_append hpoints, hpoints.characters?_eq_some_iff.mpr hcontent, Option.map_some,
        String.ofList_toList]
  | @unpaired text points hpoints hcontent =>
      have hnone : characters? points = none := by
        refine Option.eq_none_iff_forall_ne_some.mpr fun content hsome => ?_
        exact hcontent content (hpoints.characters?_eq_some_iff.mp hsome)
      simp only [List.cons_append, List.append_assoc, List.nil_append, token?,
        string?_append hpoints, hnone, Option.map_none]
  | _ => rfl

theorem spellsToken_of_string? {text rest : List Char} {token : Token}
    (h : string? text = some (token, rest)) :
    ∃ first, SpellsToken ('"' :: first) token ∧ text = first ++ rest := by
  simp only [string?, Option.bind_eq_bind, Option.bind_eq_some_iff, Prod.exists, Option.pure_def,
    Option.some.injEq, Prod.mk.injEq] at h
  obtain ⟨points, _, hread, rfl, rfl⟩ := h
  obtain ⟨first, hpoints, rfl⟩ := codePoints?_eq_some_iff.mp hread
  refine ⟨first ++ ['"'], ?_, by simp only [List.append_assoc, List.cons_append, List.nil_append]⟩
  cases hcontent : characters? points with
  | none =>
      refine .unpaired hpoints fun content hencodes => ?_
      rw [hpoints.characters?_eq_some_iff.mpr hencodes] at hcontent
      cases hcontent
  | some content =>
      refine .string hpoints ?_
      rw [String.toList_ofList]
      exact hpoints.characters?_eq_some_iff.mp hcontent

-- Every token that is read is spelled by what the text begins with.
theorem spellsToken_of_token? {text rest : List Char} {token : Token}
    (h : token? text = some (token, rest)) :
    ∃ first, SpellsToken first token ∧ text = first ++ rest := by
  unfold token? at h
  split at h
  case h_10 =>
    obtain ⟨first, hfirst, rfl⟩ := spellsToken_of_string? h
    exact ⟨_, hfirst, rfl⟩
  case h_11 =>
    obtain ⟨⟨literal, left⟩, hnumber, hpair⟩ := Option.map_eq_some_iff.mp h
    cases hpair
    obtain ⟨first, hmagnitude, rfl⟩ := spellsMagnitude_of_number? hnumber
    exact ⟨_, .negative hmagnitude, rfl⟩
  case h_12 =>
    obtain ⟨⟨literal, left⟩, hnumber, hpair⟩ := Option.map_eq_some_iff.mp h
    cases hpair
    obtain ⟨first, hmagnitude, rfl⟩ := spellsMagnitude_of_number? hnumber
    exact ⟨_, .positive hmagnitude, rfl⟩
  all_goals
    cases h
    exact ⟨_, by constructor, rfl⟩

theorem isBlank_iff {c : Char} : isBlank c ↔ c ∈ [' ', '\t', '\n', '\r'] := by
  simp only [isBlank, Bool.or_eq_true, decide_eq_true_eq, or_assoc, List.mem_cons,
    List.not_mem_nil, or_false]

theorem token?_blank_cons {c : Char} (hblank : c ∈ [' ', '\t', '\n', '\r']) (text : List Char) :
    token? (c :: text) = none := by
  simp only [List.mem_cons, List.not_mem_nil, or_false] at hblank
  rcases hblank with rfl | rfl | rfl | rfl <;> rfl

theorem tokens?_of_token? {text rest : List Char} {token : Token}
    (h : token? text = some (token, rest)) : tokens? text = (tokens? rest).map (token :: ·) := by
  cases text with
  | nil => cases h
  | cons c tail =>
      have hblank : ¬ isBlank c := by
        intro hblank
        rw [token?_blank_cons (isBlank_iff.mp hblank)] at h
        cases h
      rw [tokens?, if_neg hblank]
      split
      · next hnone =>
          rw [h] at hnone
          cases hnone
      · next hsome =>
          rw [h] at hsome
          cases hsome
          rfl

theorem tokens?_blank_cons {c : Char} (hblank : c ∈ [' ', '\t', '\n', '\r']) (text : List Char) :
    tokens? (c :: text) = tokens? text := by
  rw [tokens?, if_pos (isBlank_iff.mpr hblank)]

-- The tokens that follow a number in a value.
def Token.FollowsNumber : Token → Prop
  | comma | closeArray | closeObject => True
  | _ => False

-- Numbers stand apart, so that the text of one is not taken for a part of another.
def Separated : List Token → Prop
  | [] => True
  | .number _ :: tokens => (∀ token ∈ tokens.head?, token.FollowsNumber) ∧ Separated tokens
  | _ :: tokens => Separated tokens

theorem SpellsTokens.endsNumber {text : List Char} {tokens : List Token}
    (h : SpellsTokens text tokens) (htokens : ∀ token ∈ tokens.head?, token.FollowsNumber) :
    EndsNumber text := by
  cases h with
  | nil => exact nofun
  | @blank c _ _ hblank _ =>
      rintro _ ⟨⟩
      simp only [List.mem_cons, List.not_mem_nil, or_false] at hblank
      rcases hblank with rfl | rfl | rfl | rfl <;> decide
  | token hfirst _ =>
      have hfollows := htokens _ rfl
      cases hfirst with
      | comma =>
          rintro c ⟨⟩
          decide
      | closeArray =>
          rintro c ⟨⟩
          decide
      | closeObject =>
          rintro c ⟨⟩
          decide
      | _ => exact hfollows.elim

-- A spelled list of tokens is read back.
theorem SpellsTokens.tokens? {text : List Char} {tokens : List Token} (h : SpellsTokens text tokens)
    (hseparated : Separated tokens) : Json.tokens? text = some tokens := by
  induction h with
  | nil => rw [Json.tokens?]
  | blank hblank _ ih => rw [tokens?_blank_cons hblank, ih hseparated]
  | @token first rest token tokens hfirst hrest ih =>
      have hnext : ∀ literal, token = .number literal → EndsNumber rest := by
        rintro literal rfl
        exact hrest.endsNumber hseparated.1
      have hseparated' : Separated tokens := by
        cases token with
        | number literal => exact hseparated.2
        | _ => exact hseparated
      rw [tokens?_of_token? (token?_append hfirst hnext), ih hseparated']
      rfl

theorem spellsTokens_of_tokens? {text : List Char} {tokens : List Token}
    (h : tokens? text = some tokens) : SpellsTokens text tokens := by
  fun_induction Json.tokens? text generalizing tokens with
  | case1 =>
      cases h
      exact .nil
  | case2 c tail hblank ih => exact .blank (isBlank_iff.mp hblank) (ih h)
  | case3 => cases h
  | case4 c tail _ token rest htoken ih =>
      obtain ⟨tokens, hrest, rfl⟩ := Option.map_eq_some_iff.mp h
      obtain ⟨first, hfirst, heq⟩ := spellsToken_of_token? htoken
      rw [heq]
      exact .token hfirst (ih hrest)

-- A word is written as a literal of digits alone.
theorem spellsToken_toString (word : UInt64) :
    SpellsToken (toString word).toList
      (.number { negative := false, whole := word.toNat, tail := [] }) := by
  have hvalue : Nat.ofDigitChars 10 (Nat.toDigits 10 word.toNat) 0 = word.toNat :=
    Nat.ofDigitChars_toDigits (by decide) (by decide)
  have hmagnitude := SpellsMagnitude.mk false (isWhole_toDigits word.toNat) .absent .absent
  rw [hvalue, List.append_nil, List.append_nil] at hmagnitude
  have htext : (toString word).toList = Nat.toDigits 10 word.toNat := Nat.toList_repr
  rw [htext]
  exact .positive hmagnitude

end SymbolicOperand.Json
