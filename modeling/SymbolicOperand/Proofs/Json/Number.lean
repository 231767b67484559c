import SymbolicOperand.Proofs.Json.Grammar

namespace SymbolicOperand.Json

-- A digit run is read to its end.
theorem digits?_append {text rest : List Char} (hdigits : IsDigits text)
    (hrest : ∀ c ∈ rest.head?, ¬ c.isDigit) : digits? (text ++ rest) = some (text, rest) := by
  obtain ⟨hne, hall⟩ := hdigits
  have htake : rest.takeWhile Char.isDigit = [] := by
    cases rest with
    | nil => rfl
    | cons c tail => exact List.takeWhile_cons_of_neg (hrest c rfl)
  have hdrop : rest.dropWhile Char.isDigit = rest := by
    simpa [htake] using List.takeWhile_append_dropWhile (p := Char.isDigit) (l := rest)
  simp only [digits?, List.takeWhile_append_of_pos hall, List.dropWhile_append_of_pos hall, htake,
    hdrop, List.append_nil]

theorem whole?_append {text rest : List Char} (hwhole : IsWhole text)
    (hrest : ∀ c ∈ rest.head?, ¬ c.isDigit) :
    whole? (text ++ rest) = some (Nat.ofDigitChars 10 text 0, rest) := by
  cases hwhole with
  | zero => rfl
  | digits hdigits hlead =>
      unfold whole?
      split
      · next heq =>
          cases text with
          | nil => exact absurd rfl hdigits.1
          | cons c tail =>
              cases heq
              exact absurd rfl hlead
      · rw [digits?_append hdigits hrest]
        rfl

theorem fraction?_append {text rest : List Char} (hfraction : IsFraction text)
    (hrest : ∀ c ∈ rest.head?, ¬ c.isDigit ∧ c ≠ '.') :
    fraction? (text ++ rest) = some (text, rest) := by
  cases hfraction with
  | absent =>
      unfold fraction?
      split
      · next tail heq =>
          obtain rfl : rest = '.' :: tail := heq
          exact absurd rfl (hrest '.' rfl).2
      · rfl
  | digits hdigits =>
      simp only [List.cons_append, fraction?, digits?_append hdigits fun c hc => (hrest c hc).1,
        Option.map_some]

theorem exponentSign_append {sign text : List Char} (hsign : sign ∈ [[], ['+'], ['-']])
    (htext : ∀ c ∈ text.head?, c.isDigit) : exponentSign (sign ++ text) = (sign, text) := by
  simp only [List.mem_cons, List.not_mem_nil, or_false] at hsign
  rcases hsign with rfl | rfl | rfl
  · unfold exponentSign
    split
    · next tail heq =>
        obtain rfl : text = '+' :: tail := heq
        exact absurd (htext '+' rfl) (by decide)
    · next tail heq =>
        obtain rfl : text = '-' :: tail := heq
        exact absurd (htext '-' rfl) (by decide)
    · rfl
  · rfl
  · rfl

theorem exponent?_append {text rest : List Char} (hexponent : IsExponent text)
    (hrest : ∀ c ∈ rest.head?, ¬ c.isDigit ∧ c ∉ ['e', 'E']) :
    exponent? (text ++ rest) = some (text, rest) := by
  cases hexponent with
  | absent =>
      cases rest with
      | nil => rfl
      | cons c tail =>
          have hmark := (hrest c rfl).2
          simp only [List.mem_cons, List.not_mem_nil, or_false] at hmark
          simp only [List.nil_append, exponent?, if_neg hmark]
  | @digits mark sign text hmark hsign hdigits =>
      simp only [List.mem_cons, List.not_mem_nil, or_false] at hmark
      have hhead : ∀ c ∈ (text ++ rest).head?, c.isDigit := by
        obtain ⟨hne, hall⟩ := hdigits
        cases text with
        | nil => exact absurd rfl hne
        | cons c tail => simpa using hall c List.mem_cons_self
      have hsplit : exponentSign (sign ++ (text ++ rest)) = (sign, text ++ rest) :=
        exponentSign_append hsign hhead
      simp only [List.cons_append, List.append_assoc, exponent?, if_pos hmark, hsplit,
        digits?_append hdigits fun c hc => (hrest c hc).1, Option.map_some]

-- A text that no number literal goes on with.
def EndsNumber (text : List Char) : Prop :=
  ∀ c ∈ text.head?, ¬ c.isDigit ∧ c ∉ ['.', 'e', 'E']

theorem IsFraction.head? {text : List Char} (h : IsFraction text) : ∀ c ∈ text.head?, c = '.' := by
  cases h with
  | absent => exact nofun
  | digits hdigits =>
      rintro c ⟨⟩
      rfl

theorem IsExponent.head? {text : List Char} (h : IsExponent text) :
    ∀ c ∈ text.head?, c ∈ ['e', 'E'] := by
  cases h with
  | absent => exact nofun
  | digits hmark hsign hdigits =>
      rintro c ⟨⟩
      exact hmark

-- The parts of a literal are told apart by the characters that they begin with.
theorem number?_append {text rest : List Char} {negative : Bool} {literal : Number}
    (hmagnitude : SpellsMagnitude text negative literal) (hrest : EndsNumber rest) :
    number? negative (text ++ rest) = some (literal, rest) := by
  cases hmagnitude with
  | @mk whole fraction exponent _ hwhole hfraction hexponent =>
    have hafterFraction : ∀ c ∈ (exponent ++ rest).head?, ¬ c.isDigit ∧ c ≠ '.' := by
      intro c hc
      rw [List.head?_append, Option.mem_def, Option.or_eq_some_iff] at hc
      rcases hc with hc | ⟨-, hc⟩
      · have hmark := hexponent.head? c hc
        simp only [List.mem_cons, List.not_mem_nil, or_false] at hmark
        rcases hmark with rfl | rfl <;> decide
      · have hends := hrest c hc
        simp only [List.mem_cons, List.not_mem_nil, or_false, not_or] at hends
        exact ⟨hends.1, hends.2.1⟩
    have hafterWhole : ∀ c ∈ (fraction ++ (exponent ++ rest)).head?, ¬ c.isDigit := by
      intro c hc
      rw [List.head?_append, Option.mem_def, Option.or_eq_some_iff] at hc
      rcases hc with hc | ⟨-, hc⟩
      · rw [hfraction.head? c hc]
        decide
      · exact (hafterFraction c hc).1
    have hafterExponent : ∀ c ∈ rest.head?, ¬ c.isDigit ∧ c ∉ ['e', 'E'] := by
      intro c hc
      obtain ⟨hdigit, hmarks⟩ := hrest c hc
      exact ⟨hdigit, fun hmem => hmarks (List.mem_cons_of_mem _ hmem)⟩
    simp only [number?, List.append_assoc, whole?_append hwhole hafterWhole,
      fraction?_append hfraction hafterFraction, exponent?_append hexponent hafterExponent,
      Option.bind_eq_bind, Option.bind_some, Option.pure_def]

-- What is read is what the text begins with, part for part.
theorem isDigits_of_digits? {text run rest : List Char} (h : digits? text = some (run, rest)) :
    IsDigits run ∧ text = run ++ rest := by
  have hsplit : text.takeWhile Char.isDigit ++ text.dropWhile Char.isDigit = text :=
    List.takeWhile_append_dropWhile
  have hall : ∀ c ∈ text.takeWhile Char.isDigit, c.isDigit :=
    List.all_eq_true.mp List.all_takeWhile
  simp only [digits?] at h
  split at h
  · cases h
  · next hne =>
      cases h
      exact ⟨⟨hne, hall⟩, hsplit.symm⟩

theorem isWhole_of_whole? {text rest : List Char} {whole : Nat}
    (h : whole? text = some (whole, rest)) :
    ∃ run, IsWhole run ∧ whole = Nat.ofDigitChars 10 run 0 ∧ text = run ++ rest := by
  unfold whole? at h
  split at h
  · cases h
    exact ⟨['0'], .zero, rfl, rfl⟩
  · next hlead =>
      obtain ⟨⟨run, rest'⟩, hdigits, hpair⟩ := Option.map_eq_some_iff.mp h
      cases hpair
      obtain ⟨hrun, rfl⟩ := isDigits_of_digits? hdigits
      refine ⟨run, .digits hrun ?_, rfl, rfl⟩
      cases run with
      | nil => exact absurd rfl hrun.1
      | cons c tail =>
          rintro ⟨⟩
          exact hlead _ rfl

theorem isFraction_of_fraction? {text run rest : List Char}
    (h : fraction? text = some (run, rest)) : IsFraction run ∧ text = run ++ rest := by
  unfold fraction? at h
  split at h
  · obtain ⟨⟨run', rest'⟩, hdigits, hpair⟩ := Option.map_eq_some_iff.mp h
    cases hpair
    obtain ⟨hrun, rfl⟩ := isDigits_of_digits? hdigits
    exact ⟨.digits hrun, rfl⟩
  · cases h
    exact ⟨.absent, rfl⟩

theorem exponentSign_split (text : List Char) :
    (exponentSign text).1 ∈ [[], ['+'], ['-']] ∧
      text = (exponentSign text).1 ++ (exponentSign text).2 := by
  unfold exponentSign
  split <;> simp

theorem isExponent_of_exponent? {text run rest : List Char}
    (h : exponent? text = some (run, rest)) : IsExponent run ∧ text = run ++ rest := by
  unfold exponent? at h
  split at h
  · cases h
    exact ⟨.absent, rfl⟩
  · next mark after =>
      split at h
      · next hmark =>
          obtain ⟨⟨run', rest'⟩, hdigits, hpair⟩ := Option.map_eq_some_iff.mp h
          cases hpair
          obtain ⟨hrun, hleft⟩ := isDigits_of_digits? hdigits
          obtain ⟨hsign, hafter⟩ := exponentSign_split after
          rw [hleft] at hafter
          refine ⟨.digits (by simpa using hmark) hsign hrun, ?_⟩
          rw [List.cons_append, List.cons_append, List.append_assoc, ← hafter]
      · cases h
        exact ⟨.absent, rfl⟩

theorem spellsMagnitude_of_number? {text rest : List Char} {negative : Bool} {literal : Number}
    (h : number? negative text = some (literal, rest)) :
    ∃ first, SpellsMagnitude first negative literal ∧ text = first ++ rest := by
  simp only [number?, Option.bind_eq_bind, Option.bind_eq_some_iff, Prod.exists, Option.pure_def,
    Option.some.injEq, Prod.mk.injEq] at h
  obtain ⟨_, _, hwhole, _, _, hfraction, _, _, hexponent, rfl, rfl⟩ := h
  obtain ⟨run, hisWhole, rfl, rfl⟩ := isWhole_of_whole? hwhole
  obtain ⟨hisFraction, rfl⟩ := isFraction_of_fraction? hfraction
  obtain ⟨hisExponent, rfl⟩ := isExponent_of_exponent? hexponent
  exact ⟨_, .mk negative hisWhole hisFraction hisExponent, by simp only [List.append_assoc]⟩

theorem head?_toDigits_ne {n : Nat} (hpos : n ≠ 0) : (Nat.toDigits 10 n).head? ≠ some '0' := by
  induction n using Nat.strongRecOn with
  | ind n ih =>
      by_cases hlt : n < 10
      · rw [Nat.toDigits_of_lt_base hlt]
        simpa using hpos
      · have hlead := ih (n / 10) (by omega) (by omega)
        obtain ⟨c, tail, hdigits⟩ :=
          List.exists_cons_of_ne_nil (Nat.toDigits_ne_nil (n := n / 10) (b := 10))
        rw [hdigits] at hlead
        rw [Nat.toDigits_of_base_le (by decide) (by omega), hdigits]
        exact hlead

theorem isWhole_toDigits (n : Nat) : IsWhole (Nat.toDigits 10 n) := by
  by_cases hzero : n = 0
  · subst hzero
    exact .zero
  · have hdigits : ∀ c ∈ Nat.toDigits 10 n, c.isDigit :=
      fun c => Nat.isDigit_of_mem_toDigits (by decide) (by decide)
    exact .digits ⟨Nat.toDigits_ne_nil, hdigits⟩ (head?_toDigits_ne hzero)

end SymbolicOperand.Json
