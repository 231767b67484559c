import SymbolicOperand.Event

namespace SymbolicOperand

-- A result together with the events reported on the way to it, oldest first.
structure Traced (α : Type) where
  result : α
  events : List Event

namespace Traced

instance : Monad Traced where
  pure result := { result, events := [] }
  map change traced := { result := change traced.result, events := traced.events }
  bind first next :=
    let second := next first.result
    { result := second.result, events := first.events ++ second.events }

def emit (event : Event) : Traced Unit :=
  { result := (), events := [event] }

end Traced

-- A computation that may fail. Its events survive the failure.
abbrev Attempt := ExceptT ResolveError Traced

namespace Attempt

variable {α β : Type}

def result (attempt : Attempt α) : Except ResolveError α :=
  attempt.run.result

def events (attempt : Attempt α) : List Event :=
  attempt.run.events

def ofExcept (result : Except ResolveError α) : Attempt α :=
  ExceptT.mk (pure result)

-- Name the step that was under way, should it fail.
def during (attempt : Attempt α) (step : String) : Attempt α :=
  ExceptT.adapt (.context step) attempt

@[simp]
theorem result_pure (value : α) : result (pure value) = .ok value := rfl

@[simp]
theorem events_pure (value : α) : events (pure value : Attempt α) = [] := rfl

@[simp]
theorem result_throw (error : ResolveError) : result (throw error : Attempt α) = .error error := rfl

@[simp]
theorem events_throw (error : ResolveError) : events (throw error : Attempt α) = [] := rfl

@[simp]
theorem result_ofExcept (value : Except ResolveError α) : result (ofExcept value) = value := rfl

@[simp]
theorem events_ofExcept (value : Except ResolveError α) : events (ofExcept value) = [] := rfl

@[simp]
theorem result_emit (event : Event) :
    result (liftM (Traced.emit event) : Attempt Unit) = .ok () := rfl

@[simp]
theorem events_emit (event : Event) :
    events (liftM (Traced.emit event) : Attempt Unit) = [event] := rfl

-- A failure ends the attempt, and with it the events.
@[simp]
theorem result_bind (attempt : Attempt α) (next : α → Attempt β) :
    result (attempt >>= next) = attempt.result >>= fun value => (next value).result := by
  rcases attempt with ⟨_ | _, _⟩ <;> rfl

@[simp]
theorem events_bind (attempt : Attempt α) (next : α → Attempt β) :
    events (attempt >>= next) =
      attempt.events ++ (attempt.result.toOption.elim [] fun value => (next value).events) := by
  rcases attempt with ⟨_ | _, _⟩ <;> rfl

@[simp]
theorem result_during (attempt : Attempt α) (step : String) :
    (attempt.during step).result = attempt.result.mapError (.context step) := rfl

@[simp]
theorem events_during (attempt : Attempt α) (step : String) :
    (attempt.during step).events = attempt.events := rfl

end Attempt

end SymbolicOperand
