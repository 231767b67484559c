import SymbolicOperand.Reference.Defs

namespace SymbolicOperand

inductive Level where
  | debug
  | trace
  deriving DecidableEq, Repr

-- What the library reports while it works.
inductive Event where
  | locating (reference : Reference)
  | resolving (reference : Reference)
  | readFailed (cell : Address) (cause : MemoryError)
  -- a cell keeps its offset because the two groups are not comparable
  | groupMismatch (cell : Cell) (recorded current : UInt64)
  | rebased (before after : Cell)
  deriving DecidableEq, Repr

namespace Event

def level : Event → Level
  | locating _ | resolving _ => .trace
  | readFailed .. | groupMismatch .. | rebased .. => .debug

def message : Event → String
  | locating _ => "get address"
  | resolving _ => "resolve"
  | readFailed .. => "memory read failed"
  | groupMismatch .. => "ap-tracking group mismatch, leaving reference as is"
  | rebased .. => "ap-tracking correction"

-- The details of an event by name, in a fixed order.
def fields : Event → List (String × String)
  | locating reference | resolving reference => [("reference", reference.text)]
  | readFailed cell cause => [("address", cell.text), ("error", cause.message)]
  | groupMismatch cell recorded current =>
      [("reference", cell.text), ("recorded_group", toString recorded),
        ("current_group", toString current)]
  | rebased before after => [("from", before.text), ("to", after.text)]

end Event

end SymbolicOperand
