namespace SymbolicOperand.Json

def hexDigit? (c : Char) : Option Nat :=
  if '0' ≤ c ∧ c ≤ '9' then some (c.toNat - '0'.toNat)
  else if 'a' ≤ c ∧ c ≤ 'f' then some (c.toNat - 'a'.toNat + 10)
  else if 'A' ≤ c ∧ c ≤ 'F' then some (c.toNat - 'A'.toNat + 10)
  else none

-- The number that four hexadecimal digits of either case write.
def hexUnit? (a b c d : Char) : Option Nat := do
  let high := (← hexDigit? a) * 16 + (← hexDigit? b)
  let low := (← hexDigit? c) * 16 + (← hexDigit? d)
  return high * 256 + low

-- The character that a letter stands for after a backslash.
def escaped? : Char → Option Char
  | '"' => some '"'
  | '\\' => some '\\'
  | '/' => some '/'
  | 'b' => some '\x08'
  | 'f' => some '\x0c'
  | 'n' => some '\n'
  | 'r' => some '\r'
  | 't' => some '\t'
  | _ => none

-- The code points of a string whose opening quote was read already, and what
-- follows the closing one. Surrogates are paired afterwards, because some strings
-- may hold them unpaired.
def codePoints? : List Char → Option (List Nat × List Char)
  | [] => none
  | '"' :: rest => some ([], rest)
  | '\\' :: 'u' :: a :: b :: c :: d :: rest => do
      let unit ← hexUnit? a b c d
      let (points, rest) ← codePoints? rest
      return (unit :: points, rest)
  | '\\' :: c :: rest => do
      let char ← escaped? c
      let (points, rest) ← codePoints? rest
      return (char.toNat :: points, rest)
  | c :: rest =>
      if ' ' ≤ c ∧ c ≠ '\\' then do
        let (points, rest) ← codePoints? rest
        return (c.toNat :: points, rest)
      else
        none

def isHighSurrogate (point : Nat) : Bool :=
  0xd800 ≤ point ∧ point < 0xdc00

def isLowSurrogate (point : Nat) : Bool :=
  0xdc00 ≤ point ∧ point < 0xe000

-- The character beyond the first 65536 that a pair of surrogates stands for.
def paired (high low : Nat) : Char :=
  Char.ofNat (0x10000 + (high - 0xd800) * 0x400 + (low - 0xdc00))

-- The text of code points in which every surrogate is one of a pair.
def characters? : List Nat → Option (List Char)
  | [] => some []
  | [point] =>
      if isHighSurrogate point ∨ isLowSurrogate point then none else some [Char.ofNat point]
  | point :: next :: rest =>
      if isHighSurrogate point ∧ isLowSurrogate next then
        (characters? rest).map (paired point next :: ·)
      else if isHighSurrogate point ∨ isLowSurrogate point then
        none
      else
        (characters? (next :: rest)).map (Char.ofNat point :: ·)

theorem length_of_codePoints? {text rest : List Char} {points : List Nat}
    (h : codePoints? text = some (points, rest)) : rest.length < text.length := by
  fun_induction codePoints? text generalizing points rest with
  | case1 => simp at h
  | case2 => simp_all
  | case3 a b c d tail ih =>
      simp only [Option.bind_eq_bind, Option.bind_eq_some_iff, Prod.exists] at h
      obtain ⟨_, _, _, _, htail, h⟩ := h
      simp only [Option.pure_def, Option.some.injEq, Prod.mk.injEq] at h
      have := ih htail
      simp only [List.length_cons, ← h.2]
      omega
  | case4 c tail _ ih =>
      simp only [Option.bind_eq_bind, Option.bind_eq_some_iff, Prod.exists] at h
      obtain ⟨_, _, _, _, htail, h⟩ := h
      simp only [Option.pure_def, Option.some.injEq, Prod.mk.injEq] at h
      have := ih htail
      simp only [List.length_cons, ← h.2]
      omega
  | case5 c tail _ _ _ _ ih =>
      simp only [Option.bind_eq_bind, Option.bind_eq_some_iff, Prod.exists] at h
      obtain ⟨_, _, htail, h⟩ := h
      simp only [Option.pure_def, Option.some.injEq, Prod.mk.injEq] at h
      have := ih htail
      simp only [List.length_cons, ← h.2]
      omega
  | case6 => simp at h

end SymbolicOperand.Json
