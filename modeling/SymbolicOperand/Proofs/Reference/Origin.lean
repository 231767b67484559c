import Mathlib.Logic.ExistsUnique
import SymbolicOperand.Proofs.Reference.Result

namespace SymbolicOperand.Reference

-- A way from a reference down to one of its parts, through operators alone.
inductive OperandPath : Reference → Type where
  | here (reference : Reference) : OperandPath reference
  | lhs (operator : Operator) {lhs : Reference} (path : OperandPath lhs) (rhs : Reference) :
      OperandPath (binary operator lhs rhs)
  | rhs (operator : Operator) (lhs : Reference) {rhs : Reference} (path : OperandPath rhs) :
      OperandPath (binary operator lhs rhs)

namespace OperandPath

-- Where a path ends.
def part {reference : Reference} : OperandPath reference → Reference
  | here reference => reference
  | lhs _ path _ => path.part
  | rhs _ _ path => path.part

-- The operands that a path leaves on its left. They are resolved before its end is.
def passed {reference : Reference} : OperandPath reference → List Reference
  | here _ => []
  | lhs _ path _ => path.passed
  | rhs _ left path => left :: path.passed

-- The steps that a failure at the end goes through on its way out, the innermost first.
def steps {reference : Reference} : OperandPath reference → List String
  | here _ => []
  | @lhs _ left path _ => path.steps ++ [s!"resolve lhs operand {left}"]
  | @rhs _ _ right path => path.steps ++ [s!"resolve rhs operand {right}"]

-- The end of a path is where a failure begins: what comes before it has a value, and so do
-- its own operands if it is an operator, but it has none.
structure IsOrigin (machine : Machine) {reference : Reference} (path : OperandPath reference)
    (error : ResolveError) : Prop where
  passed : ∀ operand ∈ path.passed, ∃ value, (operand.resolve machine).result = .ok value
  operands : ∀ operator lhs rhs, path.part = binary operator lhs rhs →
    (∃ value, (lhs.resolve machine).result = .ok value) ∧
      ∃ value, (rhs.resolve machine).result = .ok value
  fails : (path.part.resolve machine).result = .error error

variable {machine : Machine} {error : ResolveError} {operator : Operator}
  {left right reference : Reference}

theorem isOrigin_lhs_iff {path : OperandPath left} :
    IsOrigin machine (lhs operator path right) error ↔ IsOrigin machine path error :=
  ⟨fun h => ⟨h.passed, h.operands, h.fails⟩, fun h => ⟨h.passed, h.operands, h.fails⟩⟩

theorem isOrigin_rhs_iff {path : OperandPath right} :
    IsOrigin machine (rhs operator left path) error ↔
      (∃ value, (left.resolve machine).result = .ok value) ∧ IsOrigin machine path error := by
  constructor
  · intro h
    obtain ⟨hleft, hpassed⟩ := List.forall_mem_cons.mp h.passed
    exact ⟨hleft, hpassed, h.operands, h.fails⟩
  · rintro ⟨hleft, h⟩
    exact ⟨List.forall_mem_cons.mpr ⟨hleft, h.passed⟩, h.operands, h.fails⟩

-- Every step on the way out adds its context to the error and nothing else.
theorem IsOrigin.resolve {path : OperandPath reference} (h : IsOrigin machine path error) :
    (reference.resolve machine).result = .error (error.wrap path.steps) := by
  induction path with
  | here reference => exact h.fails
  | lhs operator path rhs ih =>
      rw [result_resolve_binary, ih (isOrigin_lhs_iff.mp h), steps, ResolveError.wrap_concat]
      rfl
  | rhs operator lhs path ih =>
      obtain ⟨⟨value, hvalue⟩, horigin⟩ := isOrigin_rhs_iff.mp h
      rw [result_resolve_binary, hvalue, ih horigin, steps, ResolveError.wrap_concat]
      rfl

theorem IsOrigin.not_ok {path : OperandPath reference} (h : IsOrigin machine path error) :
    ¬ ∃ value, (reference.resolve machine).result = .ok value := by
  rintro ⟨value, hvalue⟩
  rw [h.resolve] at hvalue
  cases hvalue

-- A failing reference is at fault itself, or exactly one of its operands is: the left one if
-- it fails, and the right one only if the left one does not.
theorem exists_isOrigin {failure : ResolveError}
    (hfails : (reference.resolve machine).result = .error failure) :
    ∃ path : OperandPath reference, ∃ error, IsOrigin machine path error := by
  induction reference generalizing failure with
  | binary operator lhs rhs ihl ihr =>
      cases hleft : (lhs.resolve machine).result with
      | error error =>
          obtain ⟨path, cause, horigin⟩ := ihl hleft
          exact ⟨.lhs operator path rhs, cause, isOrigin_lhs_iff.mpr horigin⟩
      | ok left =>
          cases hright : (rhs.resolve machine).result with
          | error error =>
              obtain ⟨path, cause, horigin⟩ := ihr hright
              exact ⟨.rhs operator lhs path, cause, isOrigin_rhs_iff.mpr ⟨⟨left, hleft⟩, horigin⟩⟩
          | ok right =>
              refine ⟨.here _, failure, ⟨nofun, ?_, hfails⟩⟩
              rintro _ _ _ ⟨⟩
              exact ⟨⟨left, hleft⟩, right, hright⟩
  | _ => exact ⟨.here _, failure, ⟨nofun, nofun, hfails⟩⟩

theorem IsOrigin.path_unique {path other : OperandPath reference} {cause : ResolveError}
    (h : IsOrigin machine path error) (hother : IsOrigin machine other cause) : path = other := by
  induction path with
  | here reference =>
      cases other with
      | here => rfl
      | lhs operator other right =>
          have hoperands := h.operands _ _ _ rfl
          exact absurd hoperands.1 (isOrigin_lhs_iff.mp hother).not_ok
      | rhs operator left other =>
          have hoperands := h.operands _ _ _ rfl
          exact absurd hoperands.2 (isOrigin_rhs_iff.mp hother).2.not_ok
  | lhs operator path right ih =>
      have hpath := isOrigin_lhs_iff.mp h
      cases other with
      | here => exact absurd (hother.operands _ _ _ rfl).1 hpath.not_ok
      | lhs _ other _ => rw [ih hpath (isOrigin_lhs_iff.mp hother)]
      | rhs _ _ other => exact absurd (isOrigin_rhs_iff.mp hother).1 hpath.not_ok
  | rhs operator left path ih =>
      obtain ⟨hleft, hpath⟩ := isOrigin_rhs_iff.mp h
      cases other with
      | here => exact absurd (hother.operands _ _ _ rfl).2 hpath.not_ok
      | lhs _ other _ => exact absurd hleft (isOrigin_lhs_iff.mp hother).not_ok
      | rhs _ _ other => rw [ih hpath (isOrigin_rhs_iff.mp hother).2]

end OperandPath

-- A failure begins at exactly one place. What is returned is the error of that place in one
-- context for each step out of it, so that its root cause and its severity are kept.
theorem existsUnique_origin {machine : Machine} {reference : Reference} {failure : ResolveError}
    (hfails : (reference.resolve machine).result = .error failure) :
    ∃! path : OperandPath reference, ∃ error, path.IsOrigin machine error ∧
      failure = error.wrap path.steps ∧ failure.root = error.root ∧
        failure.severity = error.severity := by
  obtain ⟨path, error, horigin⟩ := OperandPath.exists_isOrigin hfails
  have hwrap : failure = error.wrap path.steps :=
    Except.error.inj (hfails.symm.trans horigin.resolve)
  refine ⟨path, ⟨error, horigin, hwrap, ?_, ?_⟩, ?_⟩
  · rw [hwrap, ResolveError.root_wrap]
  · rw [hwrap, ResolveError.severity_wrap]
  · rintro other ⟨cause, hother, -⟩
    exact hother.path_unique horigin

-- Both operands of the sum fail. The difference on the left is reported, which fails only
-- after its operands were resolved.
theorem existsUnique_origin_leftmost :
    let machine := Machine.start (Registers.start 0)
    let difference := binary .sub (immediate 2) (immediate 1)
    let product := binary .mul (immediate 3) difference
    let reference := binary .add product (deref (cell { base := .ap, offset := 0 }))
    let failure := ResolveError.context
      "resolve lhs operand BinaryOp(Immediate(3) * BinaryOp(Immediate(2) - Immediate(1)))"
      (.context "resolve rhs operand BinaryOp(Immediate(2) - Immediate(1))" (.unknownOperator "-"))
    (reference.resolve machine).result = .error failure ∧
      ∃! path : OperandPath reference, ∃ error, path.IsOrigin machine error ∧
        failure = error.wrap path.steps ∧ failure.root = error.root ∧
          failure.severity = error.severity := by
  intro machine difference product reference failure
  have hfails : (reference.resolve machine).result = .error failure := by rfl
  exact ⟨hfails, existsUnique_origin hfails⟩

end SymbolicOperand.Reference
