namespace SymbolicOperand.Json

-- A number literal. No zero leads the digits before the point, so their value
-- determines them. The fraction and the exponent are kept as they are written.
structure Number where
  negative : Bool
  whole : Nat
  tail : List Char
  deriving DecidableEq, Repr

-- The digits that a text begins with, if there are any, and what follows them.
def digits? (text : List Char) : Option (List Char × List Char) :=
  match text.takeWhile Char.isDigit with
  | [] => none
  | run => some (run, text.dropWhile Char.isDigit)

-- A digit after a leading zero is left over, to be refused as a second number.
def whole? : List Char → Option (Nat × List Char)
  | '0' :: rest => some (0, rest)
  | text => (digits? text).map fun (run, rest) => (Nat.ofDigitChars 10 run 0, rest)

def fraction? : List Char → Option (List Char × List Char)
  | '.' :: rest => (digits? rest).map fun (run, rest) => ('.' :: run, rest)
  | text => some ([], text)

def exponentSign : List Char → List Char × List Char
  | '+' :: rest => (['+'], rest)
  | '-' :: rest => (['-'], rest)
  | text => ([], text)

def exponent? : List Char → Option (List Char × List Char)
  | [] => some ([], [])
  | c :: rest =>
      if c = 'e' ∨ c = 'E' then
        (digits? (exponentSign rest).2).map fun (run, left) =>
          (c :: (exponentSign rest).1 ++ run, left)
      else
        some ([], c :: rest)

-- A literal whose sign was read already.
def number? (negative : Bool) (text : List Char) : Option (Number × List Char) := do
  let (whole, rest) ← whole? text
  let (fraction, rest) ← fraction? rest
  let (exponent, rest) ← exponent? rest
  return ({ negative, whole, tail := fraction ++ exponent }, rest)

theorem length_of_digits? {text run rest : List Char} (h : digits? text = some (run, rest)) :
    rest.length < text.length := by
  have hsplit : (text.takeWhile Char.isDigit ++ text.dropWhile Char.isDigit).length = text.length := by
    rw [List.takeWhile_append_dropWhile]
  simp only [digits?] at h
  split at h
  · simp at h
  · next hne =>
      simp only [Option.some.injEq, Prod.mk.injEq] at h
      have hpos := List.length_pos_iff.mpr hne
      rw [List.length_append, h.2] at hsplit
      omega

theorem length_of_whole? {text rest : List Char} {whole : Nat}
    (h : whole? text = some (whole, rest)) : rest.length < text.length := by
  unfold whole? at h
  split at h
  · simp_all
  · obtain ⟨⟨run, rest'⟩, hd, he⟩ := Option.map_eq_some_iff.mp h
    simp only [Prod.mk.injEq] at he
    exact he.2 ▸ length_of_digits? hd

theorem length_of_fraction? {text run rest : List Char} (h : fraction? text = some (run, rest)) :
    rest.length ≤ text.length := by
  unfold fraction? at h
  split at h
  · obtain ⟨⟨run', rest'⟩, hd, he⟩ := Option.map_eq_some_iff.mp h
    simp only [Prod.mk.injEq] at he
    have := length_of_digits? hd
    simp only [List.length_cons, ← he.2]
    omega
  · simp_all

theorem length_exponentSign (text : List Char) : (exponentSign text).2.length ≤ text.length := by
  unfold exponentSign
  split <;> simp

theorem length_of_exponent? {text run rest : List Char} (h : exponent? text = some (run, rest)) :
    rest.length ≤ text.length := by
  unfold exponent? at h
  split at h
  · simp_all
  · next c tail =>
      split at h
      · obtain ⟨⟨run', rest'⟩, hd, he⟩ := Option.map_eq_some_iff.mp h
        simp only [Prod.mk.injEq] at he
        have hdigits := length_of_digits? hd
        have hsign := length_exponentSign tail
        simp only [List.length_cons, ← he.2]
        omega
      · simp_all

theorem length_of_number? {negative : Bool} {text rest : List Char} {literal : Number}
    (h : number? negative text = some (literal, rest)) : rest.length < text.length := by
  simp only [number?, Option.bind_eq_bind, Option.bind_eq_some_iff, Prod.exists] at h
  obtain ⟨_, _, hwhole, _, _, hfraction, _, _, hexponent, h⟩ := h
  simp only [Option.pure_def, Option.some.injEq, Prod.mk.injEq] at h
  have h1 := length_of_whole? hwhole
  have h2 := length_of_fraction? hfraction
  have h3 := length_of_exponent? hexponent
  rw [← h.2]
  omega

end SymbolicOperand.Json
