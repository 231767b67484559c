import SymbolicOperand.Address
import SymbolicOperand.Felt

namespace SymbolicOperand

-- The content of a cell: a pointer into a segment, or a plain field element.
inductive Value where
  | address (target : Address)
  | felt (number : Felt)
  deriving DecidableEq, Repr

namespace Value

-- The name of the tag in diagnostics.
def kind : Value → String
  | address _ => "address"
  | felt _ => "field element"

def isAddress : Value → Bool
  | address _ => true
  | felt _ => false

def isFelt : Value → Bool
  | address _ => false
  | felt _ => true

def toAddress? : Value → Option Address
  | address target => some target
  | felt _ => none

def toFelt? : Value → Option Felt
  | address _ => none
  | felt number => some number

def text : Value → String
  | address target => target.text
  | felt number => number.text

instance : ToString Value := ⟨text⟩

end Value

end SymbolicOperand
