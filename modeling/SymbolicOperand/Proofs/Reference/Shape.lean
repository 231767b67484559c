import SymbolicOperand.Proofs.Memory.Lemmas
import SymbolicOperand.Proofs.Reference.Success

namespace SymbolicOperand

namespace ResolveError

-- Causes that are met on the way to a cell and in it.
inductive IsAccess : ResolveError → Prop where
  | offsetOverflow (base : UInt64) (offset : Int16) : IsAccess (.offsetOverflow base offset)
  | typeMismatch (expected got : String) : IsAccess (.typeMismatch expected got)
  | uninitialized (cell : Address) : IsAccess (.memory (.uninitialized cell))
  | unknownSegment (segment : UInt64) : IsAccess (.memory (.unknownSegment segment))

-- Causes that are met in the arithmetic on what was read.
inductive IsArithmetic : ResolveError → Prop where
  | illTyped (operator : String) (lhs rhs : Value) :
      IsArithmetic (.memory (.illTyped operator lhs rhs))
  | pointerOverflow (base : Address) (delta : Felt) :
      IsArithmetic (.memory (.pointerOverflow base delta))

end ResolveError

-- A failure, if there is one, has a root cause of a certain kind.
def FailsOnly {α : Type} (causes : ResolveError → Prop) (outcome : Except ResolveError α) : Prop :=
  ∀ error, outcome = .error error → causes error.root

namespace FailsOnly

variable {α β : Type} {causes other : ResolveError → Prop} {outcome : Except ResolveError α}

theorem ok (value : α) : FailsOnly causes (.ok value) :=
  nofun

theorem error {cause : ResolveError} (h : causes cause.root) :
    FailsOnly causes (.error cause : Except ResolveError α) := by
  rintro _ ⟨⟩
  exact h

theorem mono (h : FailsOnly causes outcome) (hcauses : ∀ cause, causes cause → other cause) :
    FailsOnly other outcome :=
  fun error herror => hcauses _ (h error herror)

theorem context (h : FailsOnly causes outcome) (step : String) :
    FailsOnly causes (outcome.mapError (.context step)) := by
  cases outcome with
  | ok value => exact .ok value
  | error cause => exact .error (h cause rfl)

theorem bind {next : α → Except ResolveError β} (h : FailsOnly causes outcome)
    (hnext : ∀ value, FailsOnly causes (next value)) : FailsOnly causes (outcome >>= next) := by
  cases outcome with
  | ok value => exact hnext value
  | error cause => exact .error (h cause rfl)

end FailsOnly

-- Each kind of step, and what it can fail with.
theorem Cell.failsOnly_locate (cell : Cell) (registers : Registers) :
    FailsOnly ResolveError.IsAccess (cell.locate registers) := by
  intro error herror
  obtain rfl := locate_error_cases herror
  exact .offsetOverflow _ _

theorem Value.failsOnly_target (pointer : Value) (offset : Int16) :
    FailsOnly ResolveError.IsAccess (pointer.target offset) := by
  intro error herror
  rcases target_error_cases herror with ⟨base, -, rfl⟩ | ⟨number, -, rfl⟩
  · exact .offsetOverflow _ _
  · exact .typeMismatch _ _

theorem Machine.failsOnly_fetch (machine : Machine) (cell : Address) :
    FailsOnly ResolveError.IsAccess (machine.fetch cell).result := by
  rw [result_fetch]
  cases hread : machine.memory.read cell with
  | ok value => exact .ok value
  | error cause =>
      rcases machine.memory.read_error_cases hread with ⟨-, rfl⟩ | rfl
      · exact .error (.unknownSegment _)
      · exact .error (.uninitialized _)

theorem Operator.failsOnly_apply {operator : Operator} (hrule : operator = .add ∨ operator = .mul)
    (lhs rhs : Value) : FailsOnly ResolveError.IsArithmetic (operator.apply lhs rhs) := by
  intro error herror
  rcases apply_error_cases herror with rfl | ⟨base, delta, rfl⟩ | ⟨rfl, -⟩
  · exact .illTyped _ _ _
  · exact .pointerOverflow _ _
  · rcases hrule with hadd | hmul
    · cases hadd
    · cases hmul

namespace Reference

-- A cell under any number of indirections.
def IsLocation : Reference → Prop
  | cell _ => True
  | deref inner => inner.IsLocation
  | doubleDeref inner _ => inner.IsLocation
  | immediate _ | binary .. => False

-- Additions and multiplications over constants and over the contents of locations.
def IsExpression : Reference → Prop
  | cell _ => False
  | deref inner => inner.IsLocation
  | doubleDeref inner _ => inner.IsLocation
  | immediate _ => True
  | binary operator lhs rhs =>
      (operator = .add ∨ operator = .mul) ∧ lhs.IsExpression ∧ rhs.IsExpression

instance decidableIsLocation : (reference : Reference) → Decidable reference.IsLocation
  | cell _ => .isTrue trivial
  | deref inner => decidableIsLocation inner
  | doubleDeref inner _ => decidableIsLocation inner
  | immediate _ | binary .. => .isFalse id

instance decidableIsExpression : (reference : Reference) → Decidable reference.IsExpression
  | cell _ => .isFalse id
  | deref inner => decidableIsLocation inner
  | doubleDeref inner _ => decidableIsLocation inner
  | immediate _ => .isTrue trivial
  | binary operator lhs rhs =>
      have := decidableIsExpression lhs
      have := decidableIsExpression rhs
      inferInstanceAs (Decidable ((operator = .add ∨ operator = .mul) ∧ _ ∧ _))

-- The references that a reference is built of, itself among them.
inductive PartOf (part : Reference) : Reference → Prop where
  | refl : PartOf part part
  | deref {inner : Reference} (h : PartOf part inner) : PartOf part (deref inner)
  | doubleDeref {inner : Reference} (offset : Int16) (h : PartOf part inner) :
      PartOf part (doubleDeref inner offset)
  | lhs {lhs : Reference} (operator : Operator) (rhs : Reference) (h : PartOf part lhs) :
      PartOf part (binary operator lhs rhs)
  | rhs {rhs : Reference} (operator : Operator) (lhs : Reference) (h : PartOf part rhs) :
      PartOf part (binary operator lhs rhs)

-- A value that stands in no cell.
def IsComputed : Reference → Prop
  | immediate _ | binary .. => True
  | _ => False

-- What spoils every reference that it is a part of: a subtraction, a computed value below an
-- indirection, or a bare cell as an operand.
inductive Spoils : Reference → Prop where
  | sub (lhs rhs : Reference) : Spoils (binary .sub lhs rhs)
  | deref {inner part : Reference} (hpart : part.PartOf inner) (h : part.IsComputed) :
      Spoils (deref inner)
  | doubleDeref {inner part : Reference} (offset : Int16) (hpart : part.PartOf inner)
      (h : part.IsComputed) : Spoils (doubleDeref inner offset)
  | lhs (operator : Operator) (c : Cell) (rhs : Reference) : Spoils (binary operator (cell c) rhs)
  | rhs (operator : Operator) (lhs : Reference) (c : Cell) : Spoils (binary operator lhs (cell c))

variable {reference part : Reference}

theorem IsLocation.of_partOf (hpart : part.PartOf reference) (h : reference.IsLocation) :
    part.IsLocation := by
  induction hpart with
  | refl => exact h
  | deref hpart ih => exact ih h
  | doubleDeref offset hpart ih => exact ih h
  | lhs operator rhs hpart ih => exact h.elim
  | rhs operator lhs hpart ih => exact h.elim

theorem IsExpression.of_partOf (hpart : part.PartOf reference) (h : reference.IsExpression) :
    part.IsExpression ∨ part.IsLocation := by
  induction hpart with
  | refl => exact .inl h
  | deref hpart ih => exact .inr (IsLocation.of_partOf hpart h)
  | doubleDeref offset hpart ih => exact .inr (IsLocation.of_partOf hpart h)
  | lhs operator rhs hpart ih => exact ih h.2.1
  | rhs operator lhs hpart ih => exact ih h.2.2

theorem IsComputed.not_isLocation (h : part.IsComputed) : ¬ part.IsLocation := by
  cases part with
  | immediate number => exact id
  | binary operator lhs rhs => exact id
  | _ => exact h.elim

theorem Spoils.not_isExpression (hpart : part.PartOf reference) (h : part.Spoils) :
    ¬ reference.IsExpression := by
  intro hreference
  have hshape := hreference.of_partOf hpart
  cases h with
  | sub lhs rhs =>
      rcases hshape with ⟨hadd | hmul, -⟩ | hlocation
      · cases hadd
      · cases hmul
      · exact hlocation
  | deref hinner hcomputed =>
      have hlocation : IsLocation _ := hshape.elim id id
      exact hcomputed.not_isLocation (hlocation.of_partOf hinner)
  | doubleDeref offset hinner hcomputed =>
      have hlocation : IsLocation _ := hshape.elim id id
      exact hcomputed.not_isLocation (hlocation.of_partOf hinner)
  | lhs operator c rhs => exact hshape.elim (fun hexpression => hexpression.2.1) id
  | rhs operator lhs c => exact hshape.elim (fun hexpression => hexpression.2.2) id

variable {machine : Machine}

-- A success is found only at a location, or in an expression.
theorem shape_of_ok (machine : Machine) (reference : Reference) :
    (∀ target, (reference.locate machine).result = .ok target → reference.IsLocation) ∧
      ∀ value, (reference.resolve machine).result = .ok value → reference.IsExpression := by
  induction reference with
  | cell c => exact ⟨fun _ _ => trivial, nofun⟩
  | deref inner ih =>
      refine ⟨ih.1, ?_⟩
      intro value hvalue
      obtain ⟨target, htarget, -⟩ := resolve_deref_eq_ok_iff.mp hvalue
      exact ih.1 target htarget
  | doubleDeref inner offset ih =>
      have hlocate : ∀ target, ((doubleDeref inner offset).locate machine).result = .ok target →
          inner.IsLocation := by
        intro target htarget
        obtain ⟨pointer, hpointer, -⟩ := locate_doubleDeref_eq_ok_iff.mp htarget
        obtain ⟨cell, hcell, -⟩ := resolve_deref_eq_ok_iff.mp hpointer
        exact ih.1 cell hcell
      refine ⟨hlocate, ?_⟩
      intro value hvalue
      obtain ⟨target, htarget, -⟩ := resolve_doubleDeref_eq_ok_iff.mp hvalue
      exact hlocate target htarget
  | immediate number => exact ⟨nofun, fun _ _ => trivial⟩
  | binary operator lhs rhs ihl ihr =>
      refine ⟨nofun, ?_⟩
      intro value hvalue
      obtain ⟨left, hleft, right, hright, happly⟩ := resolve_binary_eq_ok_iff.mp hvalue
      refine ⟨?_, ihl.2 left hleft, ihr.2 right hright⟩
      cases operator with
      | add => exact .inl rfl
      | mul => exact .inr rfl
      | sub => cases happly

theorem failsOnly_resolve_deref {inner : Reference}
    (h : FailsOnly ResolveError.IsAccess (inner.locate machine).result) :
    FailsOnly ResolveError.IsAccess ((deref inner).resolve machine).result := by
  rw [result_resolve_deref]
  exact (h.context _).bind machine.failsOnly_fetch

theorem failsOnly_locate_doubleDeref {inner : Reference} (offset : Int16)
    (h : FailsOnly ResolveError.IsAccess (inner.locate machine).result) :
    FailsOnly ResolveError.IsAccess ((doubleDeref inner offset).locate machine).result := by
  rw [result_locate_doubleDeref]
  exact ((failsOnly_resolve_deref h).context _).bind fun pointer => pointer.failsOnly_target offset

theorem failsOnly_locate (machine : Machine) {reference : Reference} (h : reference.IsLocation) :
    FailsOnly ResolveError.IsAccess (reference.locate machine).result := by
  induction reference with
  | cell c => exact c.failsOnly_locate machine.registers
  | deref inner ih => exact ih h
  | doubleDeref inner offset ih => exact failsOnly_locate_doubleDeref offset (ih h)
  | immediate number => exact h.elim
  | binary operator lhs rhs => exact h.elim

-- Arithmetic is at fault only where there is an operator.
theorem failsOnly_resolve (machine : Machine) {reference : Reference} (h : reference.IsExpression) :
    FailsOnly (fun cause => cause.IsAccess ∨ cause.IsArithmetic ∧
      ∃ operator lhs rhs, (binary operator lhs rhs).PartOf reference)
        (reference.resolve machine).result := by
  induction reference with
  | cell c => exact h.elim
  | deref inner => exact (failsOnly_resolve_deref (failsOnly_locate machine h)).mono fun _ => .inl
  | doubleDeref inner offset =>
      rw [result_resolve_doubleDeref]
      have hlocate := failsOnly_locate_doubleDeref offset (failsOnly_locate machine h)
      exact (hlocate.bind fun cell => (machine.failsOnly_fetch cell).context _).mono fun _ => .inl
  | immediate number => exact .ok _
  | binary operator lhs rhs ihl ihr =>
      obtain ⟨hrule, hlhs, hrhs⟩ := h
      have hself : ∃ operator' lhs' rhs',
          (binary operator' lhs' rhs').PartOf (binary operator lhs rhs) := ⟨_, _, _, .refl⟩
      rw [result_resolve_binary]
      refine (FailsOnly.context ?_ _).bind fun left => (FailsOnly.context ?_ _).bind fun right => ?_
      · exact (ihl hlhs).mono fun _ => Or.imp_right fun hcause => ⟨hcause.1, hself⟩
      · exact (ihr hrhs).mono fun _ => Or.imp_right fun hcause => ⟨hcause.1, hself⟩
      · exact (Operator.failsOnly_apply hrule left right).mono fun _ hcause => .inr ⟨hcause, hself⟩

theorem exists_error_of_not_ok {α : Type} {outcome : Except ResolveError α}
    (h : ∀ value, outcome ≠ .ok value) : ∃ error, outcome = .error error := by
  cases outcome with
  | ok value => exact absurd rfl (h value)
  | error cause => exact ⟨cause, rfl⟩

-- The shape of a reference decides what can come of it. With the wrong one it fails on every
-- machine. With the right one only the memory and the arithmetic on its content can fail it.
theorem shape_decides_failure (reference : Reference) (machine : Machine) :
    (¬ reference.IsLocation → ∃ error, (reference.locate machine).result = .error error) ∧
      (¬ reference.IsExpression → ∃ error, (reference.resolve machine).result = .error error) ∧
      (∀ part : Reference, part.PartOf reference → part.Spoils →
        ∃ error, (reference.resolve machine).result = .error error) ∧
      (reference.IsLocation → ∀ error, (reference.locate machine).result = .error error →
        error.root.IsAccess) ∧
      (reference.IsExpression → ∀ error, (reference.resolve machine).result = .error error →
        error.root.IsAccess ∨ error.root.IsArithmetic ∧
          ∃ operator lhs rhs, (binary operator lhs rhs).PartOf reference) := by
  obtain ⟨hlocate, hresolve⟩ := shape_of_ok machine reference
  have hfails : ¬ reference.IsExpression →
      ∃ error, (reference.resolve machine).result = .error error :=
    fun hshape => exists_error_of_not_ok fun value hvalue => hshape (hresolve value hvalue)
  refine ⟨?_, hfails, ?_, failsOnly_locate machine, failsOnly_resolve machine⟩
  · exact fun hshape => exists_error_of_not_ok fun target htarget => hshape (hlocate target htarget)
  · exact fun part hpart hspoils => hfails (hspoils.not_isExpression hpart)

-- A bare cell, a constant below an indirection behind a cell that is missing, and a product
-- that reads through a pointer. Where the cells are filled the product has a value.
theorem shape_decides_failure_behind_missing :
    let machine := Machine.start (Registers.start 1)
    let pointer : Value := .address { segment := executionSegment, offset := 0 }
    let filled : Machine := { machine with
      memory := { segments := #[{}, { cells := #[some pointer, none, some (.felt 21)] }] } }
    let bare := cell { base := .fp, offset := -1 }
    let spoilt := binary .add (deref (cell { base := .ap, offset := 0 })) (deref (immediate 5))
    let location := doubleDeref (deref bare) 2
    let product := binary .mul location (immediate 2)
    (∃ error, (spoilt.locate machine).result = .error error) ∧
      (∃ error, (bare.resolve machine).result = .error error) ∧
      (∃ error, (spoilt.resolve machine).result = .error error) ∧
      (deref (immediate 5)).PartOf spoilt ∧ (deref (immediate 5)).Spoils ∧
      FailsOnly ResolveError.IsAccess (location.locate machine).result ∧
      FailsOnly (fun cause => cause.IsAccess ∨ cause.IsArithmetic ∧
        ∃ operator lhs rhs, (binary operator lhs rhs).PartOf product)
          (product.resolve machine).result ∧
      (location.locate filled).result = .ok { segment := executionSegment, offset := 2 } ∧
      (product.resolve filled).result = .ok (.felt 42) := by
  intro machine pointer filled bare spoilt location product
  have hspoils : (deref (immediate 5)).Spoils := .deref (.refl) trivial
  have hpart : (deref (immediate 5)).PartOf spoilt := .rhs _ _ .refl
  have hproduct : product.IsExpression := by decide
  obtain ⟨-, hbare, -, -, -⟩ := shape_decides_failure bare machine
  obtain ⟨hlocate, -, hspoilt, -, -⟩ := shape_decides_failure spoilt machine
  obtain ⟨-, -, -, hlocation, -⟩ := shape_decides_failure location machine
  obtain ⟨-, -, -, -, hexpression⟩ := shape_decides_failure product machine
  exact ⟨hlocate (by decide), hbare (by decide), hspoilt _ hpart hspoils, hpart, hspoils,
    hlocation (by decide), hexpression hproduct, rfl, rfl⟩

end Reference

end SymbolicOperand
