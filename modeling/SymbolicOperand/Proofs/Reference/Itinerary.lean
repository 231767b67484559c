import SymbolicOperand.Reference.Resolve

namespace SymbolicOperand

namespace Attempt

variable {α β : Type}

-- The calls that an attempt reported, in the order in which they began.
def trace (attempt : Attempt α) : List Event :=
  attempt.events.filter (·.level = .trace)

theorem trace_bind (attempt : Attempt α) (next : α → Attempt β) :
    trace (attempt >>= next) =
      attempt.trace ++ (attempt.result.toOption.elim [] fun value => (next value).trace) := by
  unfold trace
  rw [events_bind, List.filter_append]
  cases attempt.result with
  | ok value => rfl
  | error error => rfl

-- The trace runs along an itinerary as far as the attempt gets. A success gets to its end.
structure Follows (itinerary : List Event) (attempt : Attempt α) : Prop where
  along : attempt.trace <+: itinerary
  whole : ∀ value, attempt.result = .ok value → attempt.trace = itinerary

theorem follows_throw (itinerary : List Event) (error : ResolveError) :
    Follows itinerary (throw error : Attempt α) :=
  ⟨List.nil_prefix, nofun⟩

theorem follows_ofExcept (outcome : Except ResolveError α) : Follows [] (ofExcept outcome) :=
  ⟨List.nil_prefix, fun _ _ => rfl⟩

namespace Follows

variable {itinerary rest : List Event} {attempt : Attempt α} {next : α → Attempt β}

theorem during (h : Follows itinerary attempt) (step : String) :
    Follows itinerary (attempt.during step) := by
  refine ⟨h.along, ?_⟩
  intro value hvalue
  rw [result_during] at hvalue
  cases hresult : attempt.result with
  | ok found => exact h.whole found hresult
  | error error =>
      rw [hresult] at hvalue
      cases hvalue

theorem bind (h : Follows itinerary attempt) (hnext : ∀ value, Follows rest (next value)) :
    Follows (itinerary ++ rest) (attempt >>= next) := by
  cases hresult : attempt.result with
  | ok value =>
      have htrace : trace (attempt >>= next) = itinerary ++ (next value).trace := by
        rw [trace_bind, h.whole value hresult, hresult]
        rfl
      refine ⟨?_, ?_⟩
      · rw [htrace, List.prefix_append_right_inj]
        exact (hnext value).along
      · intro last hlast
        rw [result_bind, hresult] at hlast
        rw [htrace, (hnext value).whole last hlast]
  | error error =>
      have htrace : trace (attempt >>= next) = attempt.trace := by
        rw [trace_bind, hresult]
        exact List.append_nil _
      refine ⟨?_, ?_⟩
      · rw [htrace]
        exact h.along.trans (List.prefix_append _ _)
      · intro last hlast
        rw [result_bind, hresult] at hlast
        cases hlast

-- A step that reports no call leaves the itinerary as it is.
theorem bind_nil (h : Follows itinerary attempt) (hnext : ∀ value, Follows [] (next value)) :
    Follows itinerary (attempt >>= next) := by
  have hbind := h.bind hnext
  rwa [List.append_nil] at hbind

-- An attempt that begins by reporting a call.
theorem call {event : Event} (hlevel : event.level = .trace) (h : Follows rest attempt) :
    Follows (event :: rest) (liftM (Traced.emit event) >>= fun _ => attempt) := by
  have hemit : Follows [event] (liftM (Traced.emit event) : Attempt Unit) := by
    have htrace : trace (liftM (Traced.emit event) : Attempt Unit) = [event] := by
      simp [trace, hlevel]
    exact ⟨htrace ▸ List.prefix_rfl, fun _ _ => htrace⟩
  exact hemit.bind fun _ => h

end Follows

end Attempt

open Attempt

namespace Machine

variable (machine : Machine)

-- A refused read is reported at a coarser level than the calls.
theorem follows_fetch (cell : Address) : Follows [] (machine.fetch cell) := by
  unfold fetch
  cases machine.memory.read cell with
  | ok value => exact ⟨List.nil_prefix, fun _ _ => rfl⟩
  | error cause => exact ⟨List.nil_prefix, nofun⟩

variable {itinerary : List Event} {located : Attempt Address}

theorem follows_load (h : Follows itinerary located) : Follows itinerary (machine.load located) :=
  (h.during _).bind_nil machine.follows_fetch

theorem follows_follow (h : Follows itinerary located) (offset : Int16) :
    Follows itinerary (machine.follow located offset) :=
  ((machine.follows_load h).during _).bind_nil fun _ => follows_ofExcept _

end Machine

-- The two ways in which a reference is called.
inductive Call where
  | locate
  | resolve
  deriving DecidableEq, Repr

def Call.event : Call → Reference → Event
  | .locate => .locating
  | .resolve => .resolving

theorem Call.level_event (call : Call) (reference : Reference) :
    (call.event reference).level = .trace := by
  cases call with
  | locate => rfl
  | resolve => rfl

namespace Reference

-- Every node once, from the outside in and from left to right. Operands are called as the
-- operator is, and what stands below an indirection is located.
def itinerary : Reference → Call → List Event
  | cell c, call => [call.event (cell c)]
  | deref inner, call => call.event (deref inner) :: inner.itinerary .locate
  | doubleDeref inner offset, call =>
      call.event (doubleDeref inner offset) :: inner.itinerary .locate
  | immediate number, call => [call.event (immediate number)]
  | binary operator lhs rhs, call =>
      call.event (binary operator lhs rhs) :: (lhs.itinerary call ++ rhs.itinerary call)

theorem follows_locate (machine : Machine) (reference : Reference) :
    Follows (reference.itinerary .locate) (reference.locate machine) := by
  induction reference with
  | cell c => exact .call (Call.level_event .locate _) (follows_ofExcept _)
  | deref inner ih => exact .call (Call.level_event .locate _) ih
  | doubleDeref inner offset ih =>
      exact .call (Call.level_event .locate _) (machine.follows_follow ih offset)
  | immediate number => exact .call (Call.level_event .locate _) (follows_throw _ _)
  | binary operator lhs rhs => exact .call (Call.level_event .locate _) (follows_throw _ _)

theorem follows_resolve (machine : Machine) (reference : Reference) :
    Follows (reference.itinerary .resolve) (reference.resolve machine) := by
  induction reference with
  | cell c => exact .call (Call.level_event .resolve _) (follows_throw _ _)
  | deref inner =>
      exact .call (Call.level_event .resolve _) (machine.follows_load (inner.follows_locate machine))
  | doubleDeref inner offset =>
      have htarget := machine.follows_follow (inner.follows_locate machine) offset
      exact .call (Call.level_event .resolve _)
        (htarget.bind_nil fun target => (machine.follows_fetch target).during _)
  | immediate number => exact .call (Call.level_event .resolve _) ⟨List.nil_prefix, fun _ _ => rfl⟩
  | binary operator lhs rhs ihl ihr =>
      refine .call (Call.level_event .resolve _) ((ihl.during _).bind fun _ => ?_)
      exact (ihr.during _).bind_nil fun _ => follows_ofExcept _

-- No call is made twice, out of order or left out on the way to a value. The machine decides
-- only how far along its itinerary a reference gets.
theorem calls_follow_itinerary (machine : Machine) (reference : Reference) :
    Follows (reference.itinerary .locate) (reference.locate machine) ∧
      Follows (reference.itinerary .resolve) (reference.resolve machine) :=
  ⟨reference.follows_locate machine, reference.follows_resolve machine⟩

-- A read that is refused ends the run after three calls out of four.
example :
    let reference := binary .add (deref (cell { base := .ap, offset := 0 })) (immediate 1)
    let run := reference.resolve (Machine.start (Registers.start 8))
    run.trace = (reference.itinerary .resolve).take 3 ∧
      (reference.itinerary .resolve).length = 4 ∧
      run.events.map (·.message) =
        ["resolve", "resolve", "get address", "memory read failed"] := by
  decide

-- The pointer of a double indirection has no entry of its own.
example :
    let inner := cell { base := .ap, offset := 0 }
    ((binary .add (doubleDeref inner 2) (immediate 1)).itinerary .resolve).map
        (fun event => (event.message, event.fields)) =
      [("resolve", [("reference",
          "BinaryOp(DoubleDeref(Deref(ApCellRef(0)), 2) + Immediate(1))")]),
        ("resolve", [("reference", "DoubleDeref(Deref(ApCellRef(0)), 2)")]),
        ("get address", [("reference", "ApCellRef(0)")]),
        ("resolve", [("reference", "Immediate(1)")])] := by
  decide

end Reference

end SymbolicOperand
