import SymbolicOperand.Proofs.Reference.Cells
import SymbolicOperand.Proofs.Reference.Result

namespace SymbolicOperand

-- Two outcomes side by side: values that are related, or errors whose root causes
-- are. What the contexts say does not count.
inductive Related {α β : Type} (values : α → β → Prop)
    (roots : ResolveError → ResolveError → Prop) :
    Except ResolveError α → Except ResolveError β → Prop where
  | ok {first : α} {second : β} (h : values first second) :
      Related values roots (.ok first) (.ok second)
  | error {first second : ResolveError} (h : roots first.root second.root) :
      Related values roots (.error first) (.error second)

namespace Related

variable {α β γ δ : Type} {values : α → β → Prop} {later : γ → δ → Prop}
  {roots : ResolveError → ResolveError → Prop}

theorem context {first : Except ResolveError α} {second : Except ResolveError β}
    (h : Related values roots first second) (step other : String) :
    Related values roots (first.mapError (.context step)) (second.mapError (.context other)) := by
  cases h with
  | ok h => exact .ok h
  | error h => exact .error h

theorem bind {first : Except ResolveError α} {second : Except ResolveError β}
    {next : α → Except ResolveError γ} {other : β → Except ResolveError δ}
    (h : Related values roots first second)
    (hnext : ∀ a b, values a b → Related later roots (next a) (other b)) :
    Related later roots (first >>= next) (second >>= other) := by
  cases h with
  | ok h => exact hnext _ _ h
  | error h => exact .error h

theorem refl {values : α → α → Prop} (hvalues : ∀ a, values a a)
    (hroots : ∀ error : ResolveError, roots error.root error.root) (outcome : Except ResolveError α) :
    Related values roots outcome outcome := by
  cases outcome with
  | ok value => exact .ok (hvalues value)
  | error error => exact .error (hroots error)

end Related

-- All that references see of a machine beyond its registers: what its cells hold,
-- and the arithmetic on that. The texts in errors differ by the change of the cells.
structure Simulation (change : Cell → Cell) (first second : Machine)
    (addresses : Address → Address → Prop) (values : Value → Value → Prop)
    (roots : ResolveError → ResolveError → Prop) : Prop where
  fetch : ∀ a b, addresses a b → Related values roots (first.fetch a).result (second.fetch b).result
  target : ∀ offset v w, values v w → Related addresses roots (v.target offset) (w.target offset)
  apply : ∀ operator v w, values v w → ∀ v' w', values v' w' →
    Related values roots (Operator.apply operator v v') (operator.apply w w')
  felt : ∀ number, values (.felt number) (.felt number)
  unresolvable : ∀ reference : Reference,
    roots (.unresolvable (reference.mapCells change).text) (.unresolvable reference.text)
  notAddressable : ∀ reference : Reference,
    roots (.notAddressable (reference.mapCells change).text) (.notAddressable reference.text)

variable {change : Cell → Cell} {first second : Machine} {addresses : Address → Address → Prop}
  {values : Value → Value → Prop} {roots : ResolveError → ResolveError → Prop}

namespace Simulation

variable (h : Simulation change first second addresses values roots) {one other : Reference}

include h

-- References over related parts are related, constructor by constructor.
theorem resolve_deref
    (hlocate : Related addresses roots (one.locate first).result (other.locate second).result) :
    Related values roots ((Reference.deref one).resolve first).result
      ((Reference.deref other).resolve second).result := by
  rw [Reference.result_resolve_deref, Reference.result_resolve_deref]
  exact (hlocate.context _ _).bind h.fetch

theorem locate_doubleDeref
    (hlocate : Related addresses roots (one.locate first).result (other.locate second).result)
    (offset : Int16) :
    Related addresses roots ((Reference.doubleDeref one offset).locate first).result
      ((Reference.doubleDeref other offset).locate second).result := by
  rw [Reference.result_locate_doubleDeref, Reference.result_locate_doubleDeref]
  exact ((h.resolve_deref hlocate).context _ _).bind (h.target offset)

theorem resolve_doubleDeref
    (hlocate : Related addresses roots (one.locate first).result (other.locate second).result)
    (offset : Int16) :
    Related values roots ((Reference.doubleDeref one offset).resolve first).result
      ((Reference.doubleDeref other offset).resolve second).result := by
  rw [Reference.result_resolve_doubleDeref, Reference.result_resolve_doubleDeref]
  exact (h.locate_doubleDeref hlocate offset).bind fun a b hab => (h.fetch a b hab).context _ _

theorem resolve_binary (operator : Operator) {lhs lhs' rhs rhs' : Reference}
    (hleft : Related values roots (lhs.resolve first).result (lhs'.resolve second).result)
    (hright : Related values roots (rhs.resolve first).result (rhs'.resolve second).result) :
    Related values roots ((Reference.binary operator lhs rhs).resolve first).result
      ((Reference.binary operator lhs' rhs').resolve second).result := by
  rw [Reference.result_resolve_binary, Reference.result_resolve_binary]
  exact (hleft.context _ _).bind fun v w hvw =>
    (hright.context _ _).bind fun v' w' hvw' => h.apply operator v w hvw v' w' hvw'

-- Machines that agree on the cells of a reference agree on the reference.
theorem reference (reference : Reference)
    (hcells : ∀ c ∈ reference.cells,
      Related addresses roots ((change c).locate first.registers) (c.locate second.registers)) :
    Related addresses roots ((reference.mapCells change).locate first).result
        (reference.locate second).result ∧
      Related values roots ((reference.mapCells change).resolve first).result
        (reference.resolve second).result := by
  induction reference with
  | cell c => exact ⟨hcells c List.mem_cons_self, .error (h.unresolvable (.cell c))⟩
  | deref inner ih =>
      have hinner := (ih hcells).1
      exact ⟨hinner, h.resolve_deref hinner⟩
  | doubleDeref inner offset ih =>
      have hinner := (ih hcells).1
      exact ⟨h.locate_doubleDeref hinner offset, h.resolve_doubleDeref hinner offset⟩
  | immediate number =>
      exact ⟨.error (h.notAddressable (.immediate number)), .ok (h.felt number)⟩
  | binary operator lhs rhs ihl ihr =>
      have hleft := (ihl fun c hc => hcells c (List.mem_append_left _ hc)).2
      have hright := (ihr fun c hc => hcells c (List.mem_append_right _ hc)).2
      exact ⟨.error (h.notAddressable (.binary operator lhs rhs)),
        h.resolve_binary operator hleft hright⟩

end Simulation

end SymbolicOperand
