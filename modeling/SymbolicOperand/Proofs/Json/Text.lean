import SymbolicOperand.Proofs.Json.Grammar

namespace SymbolicOperand.Json

theorem hexDigit?_eq_some_iff {c : Char} {n : Nat} : hexDigit? c = some n ↔ IsHexDigit c n := by
  constructor
  · intro h
    have hdigits : ∀ n < 10, n.digitChar.toNat = n + 48 := by decide
    have hletters : ∀ n < 16, 10 ≤ n →
        n.digitChar.toNat = n + 87 ∧ n.digitChar.toUpper.toNat = n + 55 := by decide
    simp only [hexDigit?, Char.le_def, UInt32.le_iff_toNat_le, Char.toNat_val, Char.reduceToNat]
      at h
    split at h
    · next hrange =>
        have hlt : n < 10 := by grind
        have hc : c.toNat = n.digitChar.toNat := by grind
        exact ⟨by omega, .inl (Char.toNat_inj.mp hc)⟩
    · split at h
      · next hrange =>
          have hlt : n < 16 := by grind
          have hc : c.toNat = n.digitChar.toNat := by grind
          exact ⟨hlt, .inl (Char.toNat_inj.mp hc)⟩
      · split at h
        · next hrange =>
            have hlt : n < 16 := by grind
            have hc : c.toNat = n.digitChar.toUpper.toNat := by grind
            exact ⟨hlt, .inr (Char.toNat_inj.mp hc)⟩
        · cases h
  · rintro ⟨hlt, hc⟩
    have hall : ∀ n < 16,
        hexDigit? n.digitChar = some n ∧ hexDigit? n.digitChar.toUpper = some n := by decide
    rcases hc with rfl | rfl
    · exact (hall n hlt).1
    · exact (hall n hlt).2

theorem hexUnit?_eq_some_iff {a b c d : Char} {unit : Nat} :
    hexUnit? a b c d = some unit ↔ ∃ k l m n, IsHexDigit a k ∧ IsHexDigit b l ∧ IsHexDigit c m ∧
      IsHexDigit d n ∧ unit = ((k * 16 + l) * 16 + m) * 16 + n := by
  simp only [hexUnit?, Option.bind_eq_bind, Option.bind_eq_some_iff, hexDigit?_eq_some_iff,
    Option.pure_def, Option.some.injEq]
  constructor
  · rintro ⟨k, hk, l, hl, m, hm, n, hn, rfl⟩
    exact ⟨k, l, m, n, hk, hl, hm, hn, by omega⟩
  · rintro ⟨k, l, m, n, hk, hl, hm, hn, rfl⟩
    exact ⟨k, hk, l, hl, m, hm, n, hn, by omega⟩

theorem escaped?_eq_some_iff {letter c : Char} :
    escaped? letter = some c ↔ (letter, c) ∈ escapes := by
  constructor
  · intro h
    unfold escaped? at h
    split at h <;> cases h <;> decide
  · intro h
    have hall : ∀ escape ∈ escapes, escaped? escape.1 = some escape.2 := by decide
    exact hall (letter, c) h

-- Each way to write a code point is read as that one.
theorem SpellsPoint.codePoints?_append {text rest left : List Char} {point : Nat}
    {points : List Nat} (h : SpellsPoint text point)
    (hrest : codePoints? rest = some (points, left)) :
    codePoints? (text ++ rest) = some (point :: points, left) := by
  cases h with
  | @plain c hprintable hquote hbackslash =>
      rw [List.cons_append, List.nil_append, codePoints?, if_pos ⟨hprintable, hbackslash⟩, hrest]
      · rfl
      · exact hquote
      · rintro _ _ _ _ _ rfl
        exact absurd rfl hbackslash
      · rintro _ _ rfl
        exact absurd rfl hbackslash
  | @letter letter c hletter =>
      have hescaped := escaped?_eq_some_iff.mpr hletter
      rw [List.cons_append, List.cons_append, List.nil_append, codePoints?, hescaped, hrest]
      · rfl
      · rintro _ _ _ _ _ rfl
        cases hescaped
  | unit ha hb hc hd =>
      have hunit := hexUnit?_eq_some_iff.mpr ⟨_, _, _, _, ha, hb, hc, hd, rfl⟩
      simp only [List.cons_append, List.nil_append, codePoints?, hunit, hrest,
        Option.bind_eq_bind, Option.bind_some, Option.pure_def]

-- A string is read up to the first quote that no backslash stands before.
theorem codePoints?_eq_some_iff {text rest : List Char} {points : List Nat} :
    codePoints? text = some (points, rest) ↔
      ∃ first, SpellsPoints first points ∧ text = first ++ '"' :: rest := by
  constructor
  · intro h
    fun_induction codePoints? text generalizing points rest with
    | case1 => cases h
    | case2 =>
        cases h
        exact ⟨[], .nil, rfl⟩
    | case3 a b c d tail ih =>
        simp only [Option.bind_eq_bind, Option.bind_eq_some_iff, Prod.exists] at h
        obtain ⟨unit, hunit, points, left, htail, h⟩ := h
        cases h
        obtain ⟨k, l, m, n, ha, hb, hc, hd, rfl⟩ := hexUnit?_eq_some_iff.mp hunit
        obtain ⟨first, hfirst, rfl⟩ := ih htail
        exact ⟨_, .cons (.unit ha hb hc hd) hfirst, rfl⟩
    | case4 letter tail _ ih =>
        simp only [Option.bind_eq_bind, Option.bind_eq_some_iff, Prod.exists] at h
        obtain ⟨c, hletter, points, left, htail, h⟩ := h
        cases h
        obtain ⟨first, hfirst, rfl⟩ := ih htail
        exact ⟨_, .cons (.letter (escaped?_eq_some_iff.mp hletter)) hfirst, rfl⟩
    | case5 c tail hquote _ _ hplain ih =>
        simp only [Option.bind_eq_bind, Option.bind_eq_some_iff, Prod.exists] at h
        obtain ⟨points, left, htail, h⟩ := h
        cases h
        obtain ⟨first, hfirst, rfl⟩ := ih htail
        exact ⟨_, .cons (.plain hplain.1 hquote hplain.2) hfirst, rfl⟩
    | case6 => cases h
  · rintro ⟨first, hfirst, rfl⟩
    induction hfirst with
    | nil => rfl
    | cons hpoint _ ih =>
        rw [List.append_assoc]
        exact hpoint.codePoints?_append ih

-- A character is no surrogate, so its own code point stands for it alone.
theorem characters?_toNat_cons (c : Char) (points : List Nat) :
    characters? (c.toNat :: points) = (characters? points).map (c :: ·) := by
  have hsurrogate : ¬ (isHighSurrogate c.toNat ∨ isLowSurrogate c.toNat) := by
    have hvalid : c.toNat < 0xd800 ∨ (0xdfff < c.toNat ∧ c.toNat < 0x110000) := c.valid
    simp only [isHighSurrogate, isLowSurrogate, decide_eq_true_eq]
    omega
  cases points with
  | nil => simp only [characters?, if_neg hsurrogate, Char.ofNat_toNat, Option.map_some]
  | cons next points =>
      have hpair : ¬ (isHighSurrogate c.toNat ∧ isLowSurrogate next) :=
        fun hpair => hsurrogate (.inl hpair.1)
      simp only [characters?, if_neg hsurrogate, if_neg hpair, Char.ofNat_toNat]

theorem characters?_pair_cons {c : Char} (hlarge : 0x10000 ≤ c.toNat) (points : List Nat) :
    characters? ((0xd800 + (c.toNat - 0x10000) / 0x400) ::
        (0xdc00 + (c.toNat - 0x10000) % 0x400) :: points) =
      (characters? points).map (c :: ·) := by
  have hvalid : c.toNat < 0xd800 ∨ (0xdfff < c.toNat ∧ c.toNat < 0x110000) := c.valid
  have hpair : isHighSurrogate (0xd800 + (c.toNat - 0x10000) / 0x400) ∧
      isLowSurrogate (0xdc00 + (c.toNat - 0x10000) % 0x400) := by
    simp only [isHighSurrogate, isLowSurrogate, decide_eq_true_eq]
    omega
  have hpaired : paired (0xd800 + (c.toNat - 0x10000) / 0x400)
      (0xdc00 + (c.toNat - 0x10000) % 0x400) = c := by
    have hsum : 0x10000 + (0xd800 + (c.toNat - 0x10000) / 0x400 - 0xd800) * 0x400 +
        (0xdc00 + (c.toNat - 0x10000) % 0x400 - 0xdc00) = c.toNat := by
      omega
    rw [paired, hsum, Char.ofNat_toNat]
  simp only [characters?, if_pos hpair, hpaired]

theorem Encodes.characters? {points : List Nat} {content : List Char} (h : Encodes points content) :
    Json.characters? points = some content := by
  induction h with
  | nil => rfl
  | char c _ ih => rw [characters?_toNat_cons, ih, Option.map_some]
  | pair hlarge _ ih => rw [characters?_pair_cons hlarge, ih, Option.map_some]

theorem toNat_ofNat_of_lt {point : Nat} (hlt : point < 0x110000)
    (h : ¬ (isHighSurrogate point ∨ isLowSurrogate point)) : (Char.ofNat point).toNat = point := by
  simp only [isHighSurrogate, isLowSurrogate, decide_eq_true_eq] at h
  have hvalid : point.isValidChar := by
    unfold Nat.isValidChar
    omega
  rw [Char.ofNat, dif_pos hvalid]
  exact Char.toNat_mk

theorem toNat_paired {high low : Nat} (hhigh : isHighSurrogate high) (hlow : isLowSurrogate low) :
    (paired high low).toNat = 0x10000 + (high - 0xd800) * 0x400 + (low - 0xdc00) := by
  simp only [isHighSurrogate, isLowSurrogate, decide_eq_true_eq] at hhigh hlow
  refine toNat_ofNat_of_lt (by omega) ?_
  simp only [isHighSurrogate, isLowSurrogate, decide_eq_true_eq]
  omega

theorem SpellsPoint.lt {text : List Char} {point : Nat} (h : SpellsPoint text point) :
    point < 0x110000 := by
  have htoNat : ∀ c : Char, c.toNat < 0x110000 := by
    intro c
    have hvalid : c.toNat < 0xd800 ∨ (0xdfff < c.toNat ∧ c.toNat < 0x110000) := c.valid
    omega
  cases h with
  | plain => exact htoNat _
  | letter => exact htoNat _
  | unit ha hb hc hd =>
      have hk := ha.1
      have hl := hb.1
      have hm := hc.1
      have hn := hd.1
      omega

theorem SpellsPoints.lt {text : List Char} {points : List Nat} (h : SpellsPoints text points) :
    ∀ point ∈ points, point < 0x110000 := by
  induction h with
  | nil => exact nofun
  | cons hfirst _ ih => exact List.forall_mem_cons.mpr ⟨hfirst.lt, ih⟩

-- Code points that a string can hold have a text if no surrogate among them is without another.
theorem encodes_of_characters? {points : List Nat} {content : List Char}
    (hlt : ∀ point ∈ points, point < 0x110000) (h : characters? points = some content) :
    Encodes points content := by
  fun_induction characters? points generalizing content with
  | case1 =>
      cases h
      exact .nil
  | case2 point hsurrogate => cases h
  | case3 point hsurrogate =>
      cases h
      have hchar := toNat_ofNat_of_lt (hlt point List.mem_cons_self) hsurrogate
      have hencodes := Encodes.char (Char.ofNat point) .nil
      rwa [hchar] at hencodes
  | case4 high low rest hpair ih =>
      obtain ⟨content, hrest, rfl⟩ := Option.map_eq_some_iff.mp h
      have hchar := toNat_paired hpair.1 hpair.2
      have hhigh := hpair.1
      have hlow := hpair.2
      simp only [isHighSurrogate, isLowSurrogate, decide_eq_true_eq] at hhigh hlow
      have hrest' := ih (fun point hmem => hlt point (by simp [hmem])) hrest
      have hencodes := Encodes.pair (c := paired high low) (by omega) hrest'
      have hhighEq : 0xd800 + ((paired high low).toNat - 0x10000) / 0x400 = high := by omega
      have hlowEq : 0xdc00 + ((paired high low).toNat - 0x10000) % 0x400 = low := by omega
      rwa [hhighEq, hlowEq] at hencodes
  | case5 => cases h
  | case6 point next rest hpair hsurrogate ih =>
      obtain ⟨content, hrest, rfl⟩ := Option.map_eq_some_iff.mp h
      have hchar := toNat_ofNat_of_lt (hlt point List.mem_cons_self) hsurrogate
      have hrest' := ih (fun point hmem => hlt point (List.mem_cons_of_mem _ hmem)) hrest
      have hencodes := Encodes.char (Char.ofNat point) hrest'
      rwa [hchar] at hencodes

theorem SpellsPoints.characters?_eq_some_iff {text content : List Char} {points : List Nat}
    (h : SpellsPoints text points) :
    Json.characters? points = some content ↔ Encodes points content :=
  ⟨encodes_of_characters? h.lt, Encodes.characters?⟩

-- A text without quotes, backslashes and control characters writes itself.
theorem spells_plain (content : List Char) (h : ∀ c ∈ content, ' ' ≤ c ∧ c ≠ '"' ∧ c ≠ '\\') :
    SpellsPoints content (content.map Char.toNat) ∧ Encodes (content.map Char.toNat) content := by
  induction content with
  | nil => exact ⟨.nil, .nil⟩
  | cons c content ih =>
      obtain ⟨⟨hprintable, hquote, hbackslash⟩, hrest⟩ := List.forall_mem_cons.mp h
      obtain ⟨hpoints, hencodes⟩ := ih hrest
      exact ⟨.cons (.plain hprintable hquote hbackslash) hpoints, .char c hencodes⟩

end SymbolicOperand.Json
