import SymbolicOperand.Memory.Error

namespace SymbolicOperand

-- Why a reference has no address or no value. Each step on the way out may wrap
-- the cause in a context that names what was being done.
inductive ResolveError where
  -- a register or pointer offset plus a displacement is no word
  | offsetOverflow (base : UInt64) (offset : Int16)
  -- the reference names a location and has no value of its own
  | unresolvable (reference : String)
  -- the reference denotes a value and has no location
  | notAddressable (reference : String)
  | typeMismatch (expected got : String)
  | unknownOperator (operator : String)
  | memory (cause : MemoryError)
  | context (step : String) (source : ResolveError)
  deriving DecidableEq, Repr

-- A missing cell may still be deduced and written, so that a later attempt
-- succeeds. Nothing else can be mended by adding to the memory.
inductive Severity where
  | fatal
  | recoverable
  deriving DecidableEq, Repr

namespace ResolveError

def message : ResolveError → String
  | offsetOverflow base offset => s!"Offset overflow: {base} + {offset}"
  | unresolvable reference =>
      s!"Cannot resolve {reference}: a cell reference names a location, not a value"
  | notAddressable reference => s!"Cannot get an address from {reference}"
  | typeMismatch expected got => s!"Type error: expected {expected}, got {got}"
  | unknownOperator operator => s!"Unknown binary operator: {operator}"
  | memory cause => cause.message
  | context step source => s!"{step}: {source.message}"

def root : ResolveError → ResolveError
  | context _ source => source.root
  | cause => cause

def severity (error : ResolveError) : Severity :=
  match error.root with
  | memory (.uninitialized _) => .recoverable
  | _ => .fatal

-- The errors that a context wraps, from the outside in.
def sources : ResolveError → List ResolveError
  | context _ source => source :: source.sources
  | _ => []

-- Wrap an error in one context per step, the first step innermost.
def wrap (error : ResolveError) (steps : List String) : ResolveError :=
  steps.foldl (fun source step => context step source) error

theorem wrap_concat (error : ResolveError) (steps : List String) (step : String) :
    error.wrap (steps ++ [step]) = context step (error.wrap steps) := by
  rw [wrap, List.foldl_append]
  rfl

@[simp]
theorem root_wrap (error : ResolveError) (steps : List String) :
    (error.wrap steps).root = error.root := by
  induction steps generalizing error with
  | nil => rfl
  | cons step steps ih => exact ih (context step error)

@[simp]
theorem severity_wrap (error : ResolveError) (steps : List String) :
    (error.wrap steps).severity = error.severity := by
  unfold severity
  rw [root_wrap]

end ResolveError

end SymbolicOperand
