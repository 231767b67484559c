import SymbolicOperand.Json.Token

namespace SymbolicOperand.Json

-- What an array or an object that is still open was opened by.
inductive Bracket where
  | array
  | object
  deriving DecidableEq, Repr

-- Pass over a value of any depth. The brackets that it is enclosed in are listed
-- from the inside out, and the tokens that are left follow the outermost one.
mutual

def skipValue (enclosing : List Bracket) : List Token → Option (List Token)
  | .null :: rest | .boolean _ :: rest | .number _ :: rest | .string _ :: rest =>
      skipRest enclosing rest
  | .openArray :: .closeArray :: rest => skipRest enclosing rest
  | .openArray :: rest => skipValue (.array :: enclosing) rest
  | .openObject :: .closeObject :: rest => skipRest enclosing rest
  | .openObject :: .string _ :: .colon :: rest => skipValue (.object :: enclosing) rest
  | _ => none

-- Go on after a value, to the next one or out of the innermost bracket.
def skipRest : List Bracket → List Token → Option (List Token)
  | [], rest => some rest
  | .array :: enclosing, .comma :: rest => skipValue (.array :: enclosing) rest
  | .array :: enclosing, .closeArray :: rest => skipRest enclosing rest
  | .object :: enclosing, .comma :: .string _ :: .colon :: rest =>
      skipValue (.object :: enclosing) rest
  | .object :: enclosing, .closeObject :: rest => skipRest enclosing rest
  | _, _ => none

end

theorem length_of_skipValue {enclosing : List Bracket} {tokens rest : List Token}
    (h : skipValue enclosing tokens = some rest) : rest.length < tokens.length := by
  induction enclosing, tokens using skipValue.induct
    (motive_2 := fun enclosing tokens =>
      skipRest enclosing tokens = some rest → rest.length ≤ tokens.length)
  all_goals grind [skipValue, skipRest]

end SymbolicOperand.Json
