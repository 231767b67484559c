import SymbolicOperand.Proofs.Reference.Shape

namespace SymbolicOperand

-- Root causes of a read that the memory refuses.
inductive ResolveError.IsRefusal : ResolveError → Prop where
  | uninitialized (cell : Address) : IsRefusal (.memory (.uninitialized cell))
  | unknownSegment (segment : UInt64) : IsRefusal (.memory (.unknownSegment segment))

-- The cell that such a cause speaks of, by itself or by its segment.
inductive MemoryError.Refuses : MemoryError → Address → Prop where
  | uninitialized (cell : Address) : Refuses (.uninitialized cell) cell
  | unknownSegment (cell : Address) : Refuses (.unknownSegment cell.segment) cell

theorem MemoryError.Refuses.isRefusal {cause : MemoryError} {cell : Address}
    (h : cause.Refuses cell) : (ResolveError.memory cause).IsRefusal := by
  cases h with
  | uninitialized => exact .uninitialized cell
  | unknownSegment => exact .unknownSegment cell.segment

theorem Memory.refuses_of_read {memory : Memory} {cell : Address} {cause : MemoryError}
    (hread : memory.read cell = .error cause) : cause.Refuses cell := by
  rcases memory.read_error_cases hread with ⟨-, rfl⟩ | rfl
  · exact .unknownSegment cell
  · exact .uninitialized cell

-- Neither the registers nor the arithmetic fail like a read does.
theorem Cell.no_refusal_locate (cell : Cell) (registers : Registers) :
    FailsOnly (¬ ·.IsRefusal) (cell.locate registers) := by
  intro error herror
  obtain rfl := locate_error_cases herror
  exact nofun

theorem Value.no_refusal_target (pointer : Value) (offset : Int16) :
    FailsOnly (¬ ·.IsRefusal) (pointer.target offset) := by
  intro error herror
  rcases target_error_cases herror with ⟨base, -, rfl⟩ | ⟨number, -, rfl⟩
  · exact nofun
  · exact nofun

theorem Operator.no_refusal_apply (operator : Operator) (lhs rhs : Value) :
    FailsOnly (¬ ·.IsRefusal) (operator.apply lhs rhs) := by
  intro error herror
  rcases apply_error_cases herror with rfl | ⟨base, delta, rfl⟩ | ⟨-, rfl⟩
  · exact nofun
  · exact nofun
  · exact nofun

-- No read was reported to fail.
def Quiet (events : List Event) : Prop :=
  ∀ cell cause, .readFailed cell cause ∉ events

theorem quiet_append {first second : List Event} (hfirst : Quiet first) (hsecond : Quiet second) :
    Quiet (first ++ second) := by
  intro cell cause hmem
  rcases List.mem_append.mp hmem with h | h
  · exact hfirst cell cause h
  · exact hsecond cell cause h

namespace Attempt

variable {α β : Type}

-- Either no read failed, or the last event is about the first read that did, and its cause is
-- the root of the error.
inductive ReportsReads (attempt : Attempt α) : Prop where
  | served (hevents : Quiet attempt.events) (hresult : FailsOnly (¬ ·.IsRefusal) attempt.result)
  | refused {before : List Event} {cell : Address} {cause : MemoryError} {error : ResolveError}
      (hevents : attempt.events = before ++ [.readFailed cell cause]) (hbefore : Quiet before)
      (hresult : attempt.result = .error error) (hroot : error.root = .memory cause)
      (hcell : cause.Refuses cell)

namespace ReportsReads

variable {attempt : Attempt α} {next : α → Attempt β}

theorem ofExcept {outcome : Except ResolveError α} (h : FailsOnly (¬ ·.IsRefusal) outcome) :
    ReportsReads (ofExcept outcome) :=
  .served nofun h

theorem throw {error : ResolveError} (h : ¬ error.root.IsRefusal) :
    ReportsReads (throw error : Attempt α) :=
  .served nofun (.error h)

theorem during (h : ReportsReads attempt) (step : String) : ReportsReads (attempt.during step) := by
  cases h with
  | served hevents hresult => exact .served hevents (hresult.context step)
  | @refused _ _ _ error hevents hbefore hresult hroot hcell =>
      have hwrapped : (attempt.during step).result = .error (.context step error) := by
        rw [result_during, hresult, mapError_error]
      exact .refused hevents hbefore hwrapped hroot hcell

theorem bind (h : ReportsReads attempt) (hnext : ∀ value, ReportsReads (next value)) :
    ReportsReads (attempt >>= next) := by
  cases hresult : attempt.result with
  | ok value =>
      have hevents : events (attempt >>= next) = attempt.events ++ (next value).events := by
        rw [events_bind, hresult]
        rfl
      have hlast : result (attempt >>= next) = (next value).result := by
        rw [result_bind, hresult]
        rfl
      cases h with
      | refused _ _ herror => cases hresult.symm.trans herror
      | served hquiet =>
          cases hnext value with
          | served hnextQuiet hfails =>
              exact .served (hevents ▸ quiet_append hquiet hnextQuiet) (hlast ▸ hfails)
          | refused hreported hbefore herror hroot hcell =>
              rw [hreported, ← List.append_assoc] at hevents
              exact .refused hevents (quiet_append hquiet hbefore) (hlast.trans herror) hroot hcell
  | error error =>
      have hevents : events (attempt >>= next) = attempt.events := by
        rw [events_bind, hresult]
        exact List.append_nil _
      have hlast : result (attempt >>= next) = .error error := by
        rw [result_bind, hresult]
        rfl
      cases h with
      | served hquiet hfails => exact .served (hevents ▸ hquiet) (hlast ▸ .error (hfails _ hresult))
      | refused hreported hbefore herror hroot hcell =>
          cases hresult.symm.trans herror
          exact .refused (hevents.trans hreported) hbefore hlast hroot hcell

-- A call is reported before anything else is.
theorem call {event : Event} (hevent : Quiet [event]) (h : ReportsReads attempt) :
    ReportsReads (liftM (Traced.emit event) >>= fun _ => attempt) := by
  have hemit : ReportsReads (liftM (Traced.emit event) : Attempt Unit) := .served hevent (.ok ())
  exact hemit.bind fun _ => h

end ReportsReads

-- The events and the result of an attempt agree on whether the memory refused a read. If it
-- did, it refused one, and that was the end of the attempt.
structure TellsRefusal (attempt : Attempt α) : Prop where
  reported_iff : (∃ cell cause, .readFailed cell cause ∈ attempt.events) ↔
    ∃ error, attempt.result = .error error ∧ error.root.IsRefusal
  last : ∀ error, attempt.result = .error error → error.root.IsRefusal →
    ∃ before cell cause, attempt.events = before ++ [.readFailed cell cause] ∧ Quiet before ∧
      error.root = .memory cause ∧ cause.Refuses cell ∧
      (Event.readFailed cell cause).fields =
        [("address", cell.text), ("error", error.root.message)]

theorem ReportsReads.tellsRefusal {attempt : Attempt α} (h : ReportsReads attempt) :
    TellsRefusal attempt := by
  cases h with
  | served hquiet hfails =>
      refine ⟨iff_of_false ?_ ?_, ?_⟩
      · rintro ⟨cell, cause, hmem⟩
        exact hquiet cell cause hmem
      · rintro ⟨error, herror, hrefusal⟩
        exact hfails error herror hrefusal
      · intro error herror hrefusal
        exact absurd hrefusal (hfails error herror)
  | @refused before cell cause error hevents hbefore hresult hroot hcell =>
      refine ⟨iff_of_true ?_ ?_, ?_⟩
      · exact ⟨cell, cause, hevents ▸ List.mem_append_right before List.mem_cons_self⟩
      · exact ⟨error, hresult, hroot ▸ hcell.isRefusal⟩
      · intro other hother _
        cases hresult.symm.trans hother
        exact ⟨before, cell, cause, hevents, hbefore, hroot, hcell, by rw [hroot]; rfl⟩

end Attempt

open Attempt

namespace Machine

variable (machine : Machine)

theorem reportsReads_fetch (cell : Address) : ReportsReads (machine.fetch cell) := by
  unfold fetch
  cases hread : machine.memory.read cell with
  | ok value => exact .served nofun (.ok value)
  | error cause =>
      have hquiet : Quiet [] := nofun
      exact .refused rfl hquiet rfl rfl (Memory.refuses_of_read hread)

variable {located : Attempt Address}

theorem reportsReads_load (h : ReportsReads located) : ReportsReads (machine.load located) :=
  (h.during _).bind machine.reportsReads_fetch

theorem reportsReads_follow (h : ReportsReads located) (offset : Int16) :
    ReportsReads (machine.follow located offset) :=
  ((machine.reportsReads_load h).during _).bind fun pointer =>
    .ofExcept (pointer.no_refusal_target offset)

end Machine

namespace Reference

theorem quiet_locating (reference : Reference) : Quiet [.locating reference] := by
  simp [Quiet]

theorem quiet_resolving (reference : Reference) : Quiet [.resolving reference] := by
  simp [Quiet]

theorem reportsReads_locate (machine : Machine) (reference : Reference) :
    ReportsReads (reference.locate machine) := by
  induction reference with
  | cell c => exact .call (quiet_locating _) (.ofExcept (c.no_refusal_locate _))
  | deref inner ih => exact .call (quiet_locating _) ih
  | doubleDeref inner offset ih =>
      exact .call (quiet_locating _) (machine.reportsReads_follow ih offset)
  | immediate number => exact .call (quiet_locating _) (.throw nofun)
  | binary operator lhs rhs => exact .call (quiet_locating _) (.throw nofun)

theorem reportsReads_resolve (machine : Machine) (reference : Reference) :
    ReportsReads (reference.resolve machine) := by
  induction reference with
  | cell c => exact .call (quiet_resolving _) (.throw nofun)
  | deref inner =>
      have hcell := inner.reportsReads_locate machine
      exact .call (quiet_resolving _) (machine.reportsReads_load hcell)
  | doubleDeref inner offset =>
      have htarget := machine.reportsReads_follow (inner.reportsReads_locate machine) offset
      exact .call (quiet_resolving _)
        (htarget.bind fun target => (machine.reportsReads_fetch target).during _)
  | immediate number => exact .call (quiet_resolving _) (.served nofun (.ok _))
  | binary operator lhs rhs ihl ihr =>
      refine .call (quiet_resolving _) ((ihl.during _).bind fun left => ?_)
      exact (ihr.during _).bind fun right => .ofExcept (operator.no_refusal_apply left right)

-- A read that the memory refuses ends the attempt: it is reported once, as the last event, and
-- the cause that is reported is the root of the error. No other failure is reported as a read.
theorem refused_read_ends_attempt (machine : Machine) (reference : Reference) :
    TellsRefusal (reference.locate machine) ∧ TellsRefusal (reference.resolve machine) :=
  ⟨(reference.reportsReads_locate machine).tellsRefusal,
    (reference.reportsReads_resolve machine).tellsRefusal⟩

-- The pointer is read, and the segment that it leads to is not there. The other operand is
-- not looked at.
example :
    let pointer : Value := .address { segment := 5, offset := 2 }
    let machine : Machine := { Machine.start (Registers.start 0) with
      memory := { segments := #[{}, { cells := #[some pointer] }] } }
    let lhs := doubleDeref (cell { base := .fp, offset := 0 }) 1
    let run := (binary .add lhs (deref (cell { base := .ap, offset := 9 }))).resolve machine
    run.events.map (fun event => (event.message, event.fields)) =
        [("resolve", [("reference",
            "BinaryOp(DoubleDeref(Deref(FpCellRef(0)), 1) + Deref(ApCellRef(9)))")]),
          ("resolve", [("reference", "DoubleDeref(Deref(FpCellRef(0)), 1)")]),
          ("get address", [("reference", "FpCellRef(0)")]),
          ("memory read failed", [("address", "5:3"), ("error", "Unknown segment 5")])] ∧
      run.result.mapError ResolveError.root = .error (.memory (.unknownSegment 5)) :=
  ⟨by decide, rfl⟩

end Reference

end SymbolicOperand
