import SymbolicOperand.Proofs.Value.Parts

namespace SymbolicOperand

-- The number that takes one offset to another. The field holds it whichever is the greater.
def Address.difference (base target : Address) : Felt :=
  Felt.ofWord target.offset - Felt.ofWord base.offset

theorem Address.difference_swap (base target : Address) :
    target.difference base = -base.difference target :=
  (neg_sub _ _).symm

namespace Value

theorem add_felt_eq_ok_iff {base target : Address} {delta : Felt} :
    (address base).add (felt delta) = .ok (address target) ↔
      base.segment = target.segment ∧ delta = base.difference target := by
  have hoffset : Felt.ofWord target.offset = Felt.ofWord base.offset + delta ↔
      delta = base.difference target := by
    rw [Address.difference, eq_sub_iff_add_eq', eq_comm]
  rw [add_eq_ok_iff, ← hoffset]
  simp only [parts, Prod.mk_add_mk, add_zero, Prod.mk.injEq, Multiset.singleton_inj,
    eq_comm (a := target.segment)]

-- Between two pointers the parts are sums in the field, and these associate. No offset on
-- the way has to be looked at again.
theorem add_felt_add {start middle stop : Value} {first second : Felt}
    (hfirst : start.add (felt first) = .ok middle) (hsecond : middle.add (felt second) = .ok stop) :
    start.add (felt (first + second)) = .ok stop := by
  rw [add_eq_ok_iff] at hfirst hsecond ⊢
  rw [hsecond, hfirst, parts_felt_add, add_assoc]

-- Two pointers into one segment differ by one field element, and its negation leads back.
-- Pointers into two segments differ by none. Two steps that can be taken are one step.
theorem pointer_difference_unique (base target : Address) :
    (base.segment = target.segment →
        ∃! delta, (address base).add (felt delta) = .ok (address target)) ∧
      (base.segment ≠ target.segment →
        ∀ delta, (address base).add (felt delta) ≠ .ok (address target)) ∧
      (∀ delta, (address base).add (felt delta) = .ok (address target) →
        (address target).add (felt (-delta)) = .ok (address base)) ∧
      ∀ (start middle stop : Value) (first second : Felt),
        start.add (felt first) = .ok middle → middle.add (felt second) = .ok stop →
          start.add (felt (first + second)) = .ok stop := by
  refine ⟨?_, ?_, ?_, ?_⟩
  · intro hsegment
    refine ⟨base.difference target, add_felt_eq_ok_iff.mpr ⟨hsegment, rfl⟩, ?_⟩
    intro delta hdelta
    exact (add_felt_eq_ok_iff.mp hdelta).2
  · intro hsegment delta hdelta
    exact hsegment (add_felt_eq_ok_iff.mp hdelta).1
  · intro delta hdelta
    obtain ⟨hsegment, rfl⟩ := add_felt_eq_ok_iff.mp hdelta
    rw [← Address.difference_swap]
    exact add_felt_eq_ok_iff.mpr ⟨hsegment.symm, rfl⟩
  · intro start middle stop first second hfirst hsecond
    exact add_felt_add hfirst hsecond

-- The two ends of a segment are as far apart as pointers can be.
theorem pointer_difference_unique_ends :
    let first : Address := { segment := 1, offset := 0 }
    let last : Address := { segment := 1, offset := 0xffffffffffffffff }
    let other : Address := { segment := 2, offset := 0 }
    let inner : Address := { segment := 1, offset := 5 }
    (∃! delta, (address first).add (felt delta) = .ok (address last)) ∧
      (address last).add (felt (-0xffffffffffffffff)) = .ok (address first) ∧
      (∀ delta, (address first).add (felt delta) ≠ .ok (address other)) ∧
      (address first).add (felt (0xffffffffffffffff + -0xfffffffffffffffa)) = .ok (address inner) := by
  intro first last other inner
  have hforward : (address first).add (felt 0xffffffffffffffff) = .ok (address last) := by decide
  have hback : (address last).add (felt (-0xfffffffffffffffa)) = .ok (address inner) := by decide
  obtain ⟨hunique, -, hreturn, hsteps⟩ := pointer_difference_unique first last
  obtain ⟨-, hapart, -⟩ := pointer_difference_unique first other
  exact ⟨hunique rfl, hreturn _ hforward, hapart (by decide), hsteps _ _ _ _ _ hforward hback⟩

end Value

end SymbolicOperand
