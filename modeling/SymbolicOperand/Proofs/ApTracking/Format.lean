import SymbolicOperand.ApTracking.Json
import SymbolicOperand.Proofs.ApTracking.Codec
import SymbolicOperand.Proofs.Json.Member

namespace SymbolicOperand.ApTracking

open Json (Token SpellsTokens entries wordNamed?)

theorem eq_number_of_tokens_append {value : Json} {rest after : List Token}
    {literal : Json.Number} (h : value.tokens ++ rest = .number literal :: after) :
    value = .number literal ∧ rest = after := by
  cases value with
  | number found =>
      cases h
      exact ⟨rfl, rfl⟩
  | array items => cases items <;> cases h
  | object members => cases members <;> cases h
  | _ => cases h

-- Only an array of two numbers has the tokens of one.
theorem eq_numbers_of_tokens {items : List Json} {first second : Json.Number}
    (h : (Json.array items).tokens =
      [.openArray, .number first, .comma, .number second, .closeArray]) :
    items = [.number first, .number second] := by
  cases items with
  | nil => cases h
  | cons item items =>
      obtain ⟨rfl, hmore⟩ := eq_number_of_tokens_append (List.cons.inj h).2
      cases items with
      | nil => cases hmore
      | cons item items =>
          obtain ⟨rfl, hlast⟩ := eq_number_of_tokens_append (List.cons.inj hmore).2
          cases items with
          | nil => rfl
          | cons item items => cases hlast

theorem ofTokens?_array_eq_some_iff {items : List Json} {tracking : ApTracking} :
    ofTokens? (Json.array items).tokens = some tracking ↔
      items = [.ofWord tracking.group, .ofWord tracking.offset] := by
  constructor
  · intro h
    unfold ofTokens? at h
    split at h
    · next first second htokens =>
        obtain rfl := eq_numbers_of_tokens htokens
        obtain ⟨hgroup, hoffset⟩ := ofWords?_eq_some_iff.mp h
        rw [Json.Number.toWord?_eq_some_iff] at hgroup hoffset
        rw [hgroup, hoffset]
        rfl
    · next htokens => cases items <;> cases htokens
    · cases h
  · rintro rfl
    exact ofWords?_eq_some_iff.mpr
      ⟨Json.Number.toWord?_eq_some_iff.mpr rfl, Json.Number.toWord?_eq_some_iff.mpr rfl⟩

theorem ofTokens?_object (members : List (String × Json)) :
    ofTokens? (Json.object members).tokens =
      ofWords? (wordNamed? "group" (entries members)) (wordNamed? "offset" (entries members)) := by
  cases members with
  | nil => simp only [Json.tokens, ofTokens?, Json.members?_closeObject]; rfl
  | cons member members =>
      simp only [Json.tokens, ofTokens?, Json.members?_append]
      rfl

theorem ofTokens?_object_eq_none {members : List (String × Json)} {name : String}
    (hname : name ∈ fields) (hnone : wordNamed? name (entries members) = none) :
    ofTokens? (Json.object members).tokens = none := by
  rw [ofTokens?_object]
  simp only [fields, List.mem_cons, List.not_mem_nil, or_false] at hname
  rcases hname with rfl | rfl
  · rw [hnone]
    rfl
  · rw [hnone]
    cases wordNamed? "group" (entries members) with
    | none => rfl
    | some group => rfl

theorem renders_toJson (tracking : ApTracking) :
    Json.Renders tracking.toJson
      (.object [("group", .ofWord tracking.group), ("offset", .ofWord tracking.offset)]) := by
  obtain ⟨hgroup, hgroupText⟩ := Json.spells_plain "group".toList (by simp)
  obtain ⟨hoffset, hoffsetText⟩ := Json.spells_plain "offset".toList (by simp)
  have htokens := SpellsTokens.token .openObject (.token (.string hgroup hgroupText) (.token .colon
    (.token (Json.spellsToken_toString tracking.group) (.token .comma
      (.token (.string hoffset hoffsetText) (.token .colon
        (.token (Json.spellsToken_toString tracking.offset) (.token .closeObject .nil))))))))
  simpa [toJson, Json.Renders, Json.tokens, Json.moreMembers, Json.ofWord] using htokens

-- The codec that takes a text apart into tokens, and passes over what is no field.
def codec : Codec where
  word? := Json.toWord?
  read? value := ofTokens? value.tokens
  decode? := ofJson?
  encode := toJson

theorem lawful_codec : codec.Lawful where
  word value word := Json.toWord?_eq_some_iff
  text text value hrenders := by
    show ofJson? text = ofTokens? value.tokens
    rw [ofJson?, hrenders.tokens?]
    rfl
  order members members' hperm := by
    have hentries : (entries members).Perm (entries members') := hperm.map _
    show ofTokens? (Json.object members).tokens = ofTokens? (Json.object members').tokens
    rw [ofTokens?_object, ofTokens?_object, Json.wordNamed?_perm hentries,
      Json.wordNamed?_perm hentries]
  unknown name value members hname := by
    simp only [fields, List.mem_cons, List.not_mem_nil, or_false, not_or] at hname
    show ofTokens? (Json.object ((name, value) :: members)).tokens =
      ofTokens? (Json.object members).tokens
    rw [ofTokens?_object, ofTokens?_object, entries, List.map_cons,
      Json.wordNamed?_cons_of_ne hname.1, Json.wordNamed?_cons_of_ne hname.2]
    rfl
  duplicate name value again members hname := by
    have hnone : wordNamed? name (entries ((name, value) :: (name, again) :: members)) = none :=
      Json.wordNamed?_cons_cons_self name _ _ _
    exact ofTokens?_object_eq_none hname hnone
  missing name members hname habsent := by
    apply ofTokens?_object_eq_none hname
    apply Json.wordNamed?_of_forall_ne
    intro member hmem
    obtain ⟨found, hfound, rfl⟩ := List.mem_map.mp hmem
    exact habsent found hfound
  record group offset := ofTokens?_object [("group", group), ("offset", offset)]
  sequence group offset := by
    ext tracking
    show ofTokens? (Json.array [group, offset]).tokens = some tracking ↔ _
    rw [ofTokens?_array_eq_some_iff, ofWords?_eq_some_iff]
    simp only [codec, Json.toWord?_eq_some_iff, List.cons.injEq, and_true]
  length items hlength := by
    rw [Option.eq_none_iff_forall_ne_some]
    intro tracking hread
    obtain rfl := ofTokens?_array_eq_some_iff.mp hread
    exact hlength rfl
  scalar value hscalar := by
    cases value with
    | array items => exact hscalar.elim
    | object members => exact hscalar.elim
    | _ => rfl
  written := renders_toJson

-- However a value is written, it is read as the descriptor that it describes if there is one, and
-- refused otherwise. What is written of a descriptor is read as the same one.
theorem Codec.Lawful.decode?_exact {codec : Codec} (h : codec.Lawful) :
    (∀ (text : String) (value : Json), Json.Renders text value →
      ∀ tracking, codec.decode? text = some tracking ↔ value.Describes tracking) ∧
    ∀ tracking : ApTracking, codec.decode? (codec.encode tracking) = some tracking := by
  have hread (text : String) (value : Json) (hrenders : Json.Renders text value)
      (tracking : ApTracking) :
      codec.decode? text = some tracking ↔ value.Describes tracking := by
    rw [h.text text value hrenders]
    exact h.read?_eq_some_iff
  refine ⟨hread, ?_⟩
  intro tracking
  exact (hread _ _ (h.written tracking) tracking).mpr (.object rfl rfl)

-- An escaped name, blanks, and a member that comes up twice, once with a string without content.
theorem Codec.Lawful.decode?_exact_escaped :
    let text := "\x7b\"x\":[-1.5e+3],\"gr\\u006fup\" : 3,\n\"offset\":12,\"x\":\"\\ud800\"\x7d"
    let value := Json.object
      [("x", .array [.number { negative := true, whole := 1, tail := ".5e+3".toList }]),
        ("group", .ofWord 3), ("offset", .ofWord 12), ("x", .string none)]
    codec.Lawful ∧ Json.Renders text value ∧
      codec.decode? text = some { group := 3, offset := 12 } ∧
      codec.decode? (codec.encode { group := 3, offset := 12 }) =
        some { group := 3, offset := 12 } := by
  intro text value
  have hrenders : Json.Renders text value := Json.spellsTokens_of_tokens? (by decide +kernel)
  have hdescribes : value.Describes { group := 3, offset := 12 } := .object rfl rfl
  obtain ⟨hdecode, hencode⟩ := Codec.Lawful.decode?_exact lawful_codec
  exact ⟨lawful_codec, hrenders, (hdecode text value hrenders _).mpr hdescribes, hencode _⟩

end SymbolicOperand.ApTracking
