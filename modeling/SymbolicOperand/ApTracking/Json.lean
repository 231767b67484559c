import SymbolicOperand.ApTracking.Defs
import SymbolicOperand.Json.Member

namespace SymbolicOperand.ApTracking

open Json (Token members? wordNamed? tokens?)

-- The codec of descriptors that programs use. A descriptor is written as an object or as
-- the array of its two words. An object names each word once, in any order, and may have
-- other members besides.
def ofTokens? : List Token → Option ApTracking
  | [.openArray, .number group, .comma, .number offset, .closeArray] => do
      return { group := ← group.toWord?, offset := ← offset.toWord? }
  | .openObject :: rest => do
      let members ← members? rest
      return { group := ← wordNamed? "group" members, offset := ← wordNamed? "offset" members }
  | _ => none

def ofJson? (text : String) : Option ApTracking := do
  ofTokens? (← tokens? text.toList)

-- The shortest object.
def toJson (tracking : ApTracking) : String :=
  "\x7b\"group\":" ++ toString tracking.group ++
    ",\"offset\":" ++ toString tracking.offset ++ "\x7d"

end SymbolicOperand.ApTracking
