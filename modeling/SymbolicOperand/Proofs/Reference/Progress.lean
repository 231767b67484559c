import SymbolicOperand.Proofs.Reference.Missing
import SymbolicOperand.Proofs.Reference.Persistence

namespace SymbolicOperand

namespace Reference

-- How many cells an attempt may read: one for each indirection, and a second one
-- for the pointer that a double indirection goes through.
def indirections : Reference → Nat
  | cell _ | immediate _ => 0
  | deref inner => inner.indirections + 1
  | doubleDeref inner _ => inner.indirections + 2
  | binary _ lhs rhs => lhs.indirections + rhs.indirections

def settled {α : Type} : Except ResolveError α → Nat
  | .ok _ => 1
  | .error _ => 0

-- How many of them have their value by now, in all parts of the reference.
def followed (machine : Machine) : Reference → Nat
  | cell _ | immediate _ => 0
  | deref inner => inner.followed machine + settled ((deref inner).resolve machine).result
  | doubleDeref inner offset =>
      inner.followed machine + settled ((deref inner).resolve machine).result +
        settled ((doubleDeref inner offset).resolve machine).result
  | binary _ lhs rhs => lhs.followed machine + rhs.followed machine

theorem settled_le_one {α : Type} (outcome : Except ResolveError α) : settled outcome ≤ 1 := by
  cases outcome with
  | ok value => exact Nat.le_refl 1
  | error error => exact Nat.zero_le 1

theorem followed_le (machine : Machine) (reference : Reference) :
    reference.followed machine ≤ reference.indirections := by
  induction reference with
  | cell c => exact Nat.le_refl 0
  | deref inner ih =>
      have hvalue := settled_le_one ((deref inner).resolve machine).result
      simp only [followed, indirections]
      omega
  | doubleDeref inner offset ih =>
      have hpointer := settled_le_one ((deref inner).resolve machine).result
      have hvalue := settled_le_one ((doubleDeref inner offset).resolve machine).result
      simp only [followed, indirections]
      omega
  | immediate number => exact Nat.le_refl 0
  | binary operator lhs rhs ihl ihr =>
      simp only [followed, indirections]
      omega

variable {before after : Machine}

theorem settled_mono (hgrows : before.Grows after) (reference : Reference) :
    settled (reference.resolve before).result ≤ settled (reference.resolve after).result := by
  cases hbefore : (reference.resolve before).result with
  | ok value =>
      have hafter := (Machine.repeats_reference hgrows reference).2.ok hbefore
      exact Nat.le_of_eq (congrArg settled hafter.symm)
  | error error => exact Nat.zero_le _

theorem followed_mono (hgrows : before.Grows after) (reference : Reference) :
    reference.followed before ≤ reference.followed after := by
  induction reference with
  | cell c => exact Nat.le_refl 0
  | deref inner ih =>
      have hvalue := settled_mono hgrows (deref inner)
      simp only [followed]
      omega
  | doubleDeref inner offset ih =>
      have hpointer := settled_mono hgrows (deref inner)
      have hvalue := settled_mono hgrows (doubleDeref inner offset)
      simp only [followed]
      omega
  | immediate number => exact Nat.le_refl 0
  | binary operator lhs rhs ihl ihr =>
      simp only [followed]
      omega

variable {cell : Address} {value : Value}

theorem settled_of_missing {α : Type} {outcome : Except ResolveError α}
    (hmissing : missing? outcome = some cell) : settled outcome = 0 := by
  obtain ⟨error, rfl, -⟩ := missing?_eq_some_iff.mp hmissing
  rfl

theorem settled_eq_one {α : Type} {outcome : Except ResolveError α} {found : α}
    (hok : outcome = .ok found) : settled outcome = 1 := by
  rw [hok]
  rfl

theorem followed_deref_lt {inner : Reference} (hgrows : before.Grows after)
    (hread : after.memory.read cell = .ok value)
    (hinner : missing? (inner.locate before).result = some cell →
      inner.followed before < inner.followed after)
    (hmissing : missing? ((deref inner).resolve before).result = some cell) :
    (deref inner).followed before < (deref inner).followed after := by
  have hmono := followed_mono hgrows inner
  have hsettled := settled_mono hgrows (deref inner)
  have hzero := settled_of_missing hmissing
  simp only [followed]
  rcases missing?_resolve_deref_iff.mp hmissing with hlocate | ⟨hlocate, -⟩
  · have hlt := hinner hlocate
    omega
  · have htarget := (Machine.repeats_reference hgrows inner).1.ok hlocate
    have hone := settled_eq_one (resolve_deref_of_read htarget hread)
    omega

-- A value in the cell that was missing lets the attempt pass one more read, and
-- takes none of the others back.
theorem followed_lt (hgrows : before.Grows after) (hread : after.memory.read cell = .ok value)
    (reference : Reference) :
    (missing? (reference.locate before).result = some cell →
        reference.followed before < reference.followed after) ∧
      (missing? (reference.resolve before).result = some cell →
        reference.followed before < reference.followed after) := by
  induction reference with
  | cell c =>
      refine ⟨?_, nofun⟩
      intro h
      simp at h
  | deref inner ih =>
      refine ⟨?_, followed_deref_lt hgrows hread ih.1⟩
      intro h
      have hlt := ih.1 h
      have hsettled := settled_mono hgrows (deref inner)
      simp only [followed]
      omega
  | doubleDeref inner offset ih =>
      have hsettled := settled_mono hgrows (doubleDeref inner offset)
      have hlocate : missing? ((doubleDeref inner offset).locate before).result = some cell →
          (doubleDeref inner offset).followed before <
            (doubleDeref inner offset).followed after := by
        intro h
        have hpointer := missing?_locate_doubleDeref_iff.mp h
        have hlt := followed_deref_lt hgrows hread ih.1 hpointer
        simp only [followed] at hlt ⊢
        omega
      refine ⟨hlocate, ?_⟩
      intro h
      rcases missing?_resolve_doubleDeref_iff.mp h with hmissing | ⟨hlocated, -⟩
      · exact hlocate hmissing
      · -- the pointer was settled already, so the new value settles the whole
        have hzero := settled_of_missing h
        have htarget := (Machine.repeats_reference hgrows (doubleDeref inner offset)).1.ok hlocated
        have hone := settled_eq_one (resolve_doubleDeref_of_read htarget hread)
        have hmono := followed_mono hgrows (deref inner)
        simp only [followed] at hmono ⊢
        omega
  | immediate number => exact ⟨nofun, nofun⟩
  | binary operator lhs rhs ihl ihr =>
      refine ⟨nofun, ?_⟩
      intro h
      have hmonol := followed_mono hgrows lhs
      have hmonor := followed_mono hgrows rhs
      simp only [followed]
      rcases missing?_resolve_binary_iff.mp h with hleft | ⟨-, hright⟩
      · have hlt := ihl.2 hleft
        omega
      · have hlt := ihr.2 hright
        omega

end Reference

end SymbolicOperand
