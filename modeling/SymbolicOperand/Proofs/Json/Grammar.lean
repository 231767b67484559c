import SymbolicOperand.Json.Token

namespace SymbolicOperand

-- A JSON value. A number is kept as the literal that writes it, and a member as it stands among
-- the others, whether or not its name comes up again. A string that is cut within a pair of
-- surrogates has no content.
inductive Json where
  | null
  | boolean (value : Bool)
  | number (literal : Json.Number)
  | string (content? : Option String)
  | array (items : List Json)
  | object (members : List (String × Json))

namespace Json

-- The literal of a word: digits alone.
def ofWord (word : UInt64) : Json :=
  .number { negative := false, whole := word.toNat, tail := [] }

mutual

-- The tokens of a value. Items and members are separated by commas, and none follows the last.
def tokens : Json → List Token
  | null => [.null]
  | boolean value => [.boolean value]
  | number literal => [.number literal]
  | string content? => [.string content?]
  | array [] => [.openArray, .closeArray]
  | array (item :: items) => .openArray :: (item.tokens ++ moreItems items)
  | object [] => [.openObject, .closeObject]
  | object ((name, value) :: members) =>
      .openObject :: .string (some name) :: .colon :: (value.tokens ++ moreMembers members)

-- What follows an item of an array, its close included.
def moreItems : List Json → List Token
  | [] => [.closeArray]
  | item :: items => .comma :: (item.tokens ++ moreItems items)

-- What follows a member of an object, its close included.
def moreMembers : List (String × Json) → List Token
  | [] => [.closeObject]
  | (name, value) :: members =>
      .comma :: .string (some name) :: .colon :: (value.tokens ++ moreMembers members)

end

def IsDigits (text : List Char) : Prop :=
  text ≠ [] ∧ ∀ c ∈ text, c.isDigit

-- No zero leads other digits.
inductive IsWhole : List Char → Prop where
  | zero : IsWhole ['0']
  | digits {text : List Char} (hdigits : IsDigits text) (hlead : text.head? ≠ some '0') :
      IsWhole text

inductive IsFraction : List Char → Prop where
  | absent : IsFraction []
  | digits {text : List Char} (hdigits : IsDigits text) : IsFraction ('.' :: text)

inductive IsExponent : List Char → Prop where
  | absent : IsExponent []
  | digits {mark : Char} {sign text : List Char} (hmark : mark ∈ ['e', 'E'])
      (hsign : sign ∈ [[], ['+'], ['-']]) (hdigits : IsDigits text) :
      IsExponent (mark :: (sign ++ text))

-- The text of a number literal after its sign.
inductive SpellsMagnitude : List Char → Bool → Number → Prop where
  | mk {whole fraction exponent : List Char} (negative : Bool) (hwhole : IsWhole whole)
      (hfraction : IsFraction fraction) (hexponent : IsExponent exponent) :
      SpellsMagnitude (whole ++ (fraction ++ exponent)) negative
        { negative, whole := Nat.ofDigitChars 10 whole 0, tail := fraction ++ exponent }

-- A hexadecimal digit of either case.
def IsHexDigit (c : Char) (n : Nat) : Prop :=
  n < 16 ∧ (c = n.digitChar ∨ c = n.digitChar.toUpper)

-- The letters that may follow a backslash, and what they stand for there.
def escapes : List (Char × Char) :=
  [('"', '"'), ('\\', '\\'), ('/', '/'), ('b', '\x08'), ('f', '\x0c'), ('n', '\n'), ('r', '\r'),
    ('t', '\t')]

-- The ways to write a code point of a string.
inductive SpellsPoint : List Char → Nat → Prop where
  | plain {c : Char} (hprintable : ' ' ≤ c) (hquote : c ≠ '"') (hbackslash : c ≠ '\\') :
      SpellsPoint [c] c.toNat
  | letter {letter c : Char} (hletter : (letter, c) ∈ escapes) : SpellsPoint ['\\', letter] c.toNat
  | unit {a b c d : Char} {k l m n : Nat} (ha : IsHexDigit a k) (hb : IsHexDigit b l)
      (hc : IsHexDigit c m) (hd : IsHexDigit d n) :
      SpellsPoint ['\\', 'u', a, b, c, d] (((k * 16 + l) * 16 + m) * 16 + n)

inductive SpellsPoints : List Char → List Nat → Prop where
  | nil : SpellsPoints [] []
  | cons {first rest : List Char} {point : Nat} {points : List Nat}
      (hfirst : SpellsPoint first point) (hrest : SpellsPoints rest points) :
      SpellsPoints (first ++ rest) (point :: points)

-- The text of code points. A character beyond the first 65536 may also be cut in two.
inductive Encodes : List Nat → List Char → Prop where
  | nil : Encodes [] []
  | char (c : Char) {points : List Nat} {content : List Char} (hrest : Encodes points content) :
      Encodes (c.toNat :: points) (c :: content)
  | pair {c : Char} {points : List Nat} {content : List Char} (hlarge : 0x10000 ≤ c.toNat)
      (hrest : Encodes points content) :
      Encodes ((0xd800 + (c.toNat - 0x10000) / 0x400) :: (0xdc00 + (c.toNat - 0x10000) % 0x400) ::
        points) (c :: content)

inductive SpellsToken : List Char → Token → Prop where
  | openArray : SpellsToken ['['] .openArray
  | closeArray : SpellsToken [']'] .closeArray
  | openObject : SpellsToken ['\x7b'] .openObject
  | closeObject : SpellsToken ['\x7d'] .closeObject
  | comma : SpellsToken [','] .comma
  | colon : SpellsToken [':'] .colon
  | null : SpellsToken ['n', 'u', 'l', 'l'] .null
  | true : SpellsToken ['t', 'r', 'u', 'e'] (.boolean true)
  | false : SpellsToken ['f', 'a', 'l', 's', 'e'] (.boolean false)
  | positive {text : List Char} {literal : Number}
      (hmagnitude : SpellsMagnitude text false literal) : SpellsToken text (.number literal)
  | negative {text : List Char} {literal : Number}
      (hmagnitude : SpellsMagnitude text true literal) : SpellsToken ('-' :: text) (.number literal)
  | string {text : List Char} {points : List Nat} {content : String}
      (hpoints : SpellsPoints text points) (hcontent : Encodes points content.toList) :
      SpellsToken ('"' :: (text ++ ['"'])) (.string (some content))
  | unpaired {text : List Char} {points : List Nat} (hpoints : SpellsPoints text points)
      (hcontent : ∀ content, ¬ Encodes points content) :
      SpellsToken ('"' :: (text ++ ['"'])) (.string none)

-- Blanks may stand before, between and after tokens.
inductive SpellsTokens : List Char → List Token → Prop where
  | nil : SpellsTokens [] []
  | blank {c : Char} {text : List Char} {tokens : List Token} (hblank : c ∈ [' ', '\t', '\n', '\r'])
      (hrest : SpellsTokens text tokens) : SpellsTokens (c :: text) tokens
  | token {first rest : List Char} {token : Token} {tokens : List Token}
      (hfirst : SpellsToken first token) (hrest : SpellsTokens rest tokens) :
      SpellsTokens (first ++ rest) (token :: tokens)

-- The texts of a value.
def Renders (text : String) (value : Json) : Prop :=
  SpellsTokens text.toList value.tokens

end Json

end SymbolicOperand
