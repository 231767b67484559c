import SymbolicOperand.Proofs.Reference.Progress

namespace SymbolicOperand

-- A caller that deduces missing cells: the machine after some rounds, and the
-- cells it wrote, the latest first.
structure Deduction where
  machine : Machine
  filled : List Address

-- What is written into a missing cell may depend on all that came before.
abbrev Strategy := Deduction → Address → Value

namespace Deduction

variable {α : Type} (attempt : Machine → Except ResolveError α) (choose : Strategy)

def round (state : Deduction) : Deduction :=
  match missing? (attempt state.machine) with
  | none => state
  | some cell =>
      let (machine, result) := state.machine.write cell (choose state cell)
      match result with
      | .ok () => { machine, filled := cell :: state.filled }
      | .error _ => { state with machine }

def rounds (machine : Machine) : Nat → Deduction
  | 0 => { machine, filled := [] }
  | count + 1 => round attempt choose (rounds machine count)

-- Every cell that is missing can be written, is missing for the first time, and
-- no more than `bound` are: then there is a value, or an error that stays.
structure Ends (machine : Machine) (bound : Nat) : Prop where
  write : ∀ count cell,
    missing? (attempt (rounds attempt choose machine count).machine) = some cell →
      ∀ value, ∃ next,
        (rounds attempt choose machine count).machine.write cell value = (next, .ok ())
  fresh : ∀ count cell,
    missing? (attempt (rounds attempt choose machine count).machine) = some cell →
      cell ∉ (rounds attempt choose machine count).filled
  filled : ∀ count, (rounds attempt choose machine count).filled.length ≤ bound
  settles : ∀ count, bound ≤ count →
    (∃ value, attempt (rounds attempt choose machine count).machine = .ok value) ∨
      ∃ error, attempt (rounds attempt choose machine count).machine = .error error ∧
        error.severity = .fatal

-- The attempt reports only cells without a value, and a value there is progress.
structure Progresses (measure : Machine → Nat) : Prop where
  read : ∀ {machine cell}, missing? (attempt machine) = some cell →
    machine.memory.read cell = .error (.uninitialized cell)
  lt : ∀ {before after cell value}, before.Grows after → missing? (attempt before) = some cell →
    after.memory.read cell = .ok value → measure before < measure after

-- The rounds so far: the cells they filled hold values, each of them was progress,
-- and none was idle while a cell was missing.
structure Sound (measure : Machine → Nat) (count : Nat) (state : Deduction) : Prop where
  read : ∀ cell ∈ state.filled, ∃ value, state.machine.memory.read cell = .ok value
  length_le : state.filled.length ≤ measure state.machine
  length_eq : missing? (attempt state.machine) ≠ none → state.filled.length = count

variable {attempt choose} {measure : Machine → Nat}

theorem Progresses.round (h : Progresses attempt measure) {count : Nat} {state : Deduction}
    (hstate : Sound attempt measure count state) :
    Sound attempt measure (count + 1) (round attempt choose state) := by
  unfold Deduction.round
  cases hmissing : missing? (attempt state.machine) with
  | none => exact ⟨hstate.read, hstate.length_le, fun hne => absurd hmissing hne⟩
  | some cell =>
      obtain ⟨next, hwrite⟩ := state.machine.exists_write (h.read hmissing) (choose state cell)
      have hgrows := state.machine.grows_write hwrite
      have hself := state.machine.read_write_self hwrite
      simp only [hwrite]
      refine ⟨?_, ?_, ?_⟩
      · intro other hother
        rcases List.mem_cons.mp hother with rfl | hother
        · exact ⟨_, hself⟩
        · obtain ⟨value, hvalue⟩ := hstate.read other hother
          exact ⟨value, hgrows.read hvalue⟩
      · have hlt := h.lt hgrows hmissing hself
        have hle := hstate.length_le
        simp only [List.length_cons]
        omega
      · intro _
        have hlength := hstate.length_eq (by simp [hmissing])
        simp only [List.length_cons, hlength]

theorem Progresses.rounds (h : Progresses attempt measure) (machine : Machine) (count : Nat) :
    Sound attempt measure count (rounds attempt choose machine count) := by
  induction count with
  | zero => exact ⟨nofun, Nat.zero_le _, fun _ => rfl⟩
  | succ count ih => exact h.round ih

-- A loop whose rounds all make progress comes to an end within the bound.
theorem Progresses.ends (h : Progresses attempt measure) {bound : Nat}
    (hbound : ∀ machine, measure machine ≤ bound) (machine : Machine) :
    Ends attempt choose machine bound := by
  have hsound (count : Nat) :
      Sound attempt measure count (Deduction.rounds attempt choose machine count) :=
    h.rounds machine count
  refine ⟨fun count cell hmissing => Machine.exists_write _ (h.read hmissing), ?_, ?_, ?_⟩
  · intro count cell hmissing hmem
    obtain ⟨value, hvalue⟩ := (hsound count).read cell hmem
    rw [h.read hmissing] at hvalue
    cases hvalue
  · intro count
    exact Nat.le_trans (hsound count).length_le (hbound _)
  · intro count hcount
    rw [← missing?_eq_none_iff]
    cases hmissing : missing? (attempt (Deduction.rounds attempt choose machine count).machine) with
    | none => rfl
    | some cell =>
        -- one more write would be one too many
        obtain ⟨next, hwrite⟩ := Machine.exists_write _ (h.read hmissing) (.felt 0)
        have hlength := (hsound count).length_eq (by simp [hmissing])
        have hle := (hsound count).length_le
        have hlt := h.lt (Machine.grows_write _ hwrite) hmissing (Machine.read_write_self _ hwrite)
        have hnext := hbound next
        omega

theorem progresses_locate (reference : Reference) :
    Progresses (fun machine => (reference.locate machine).result)
      (fun machine => reference.followed machine) where
  read hmissing := (reference.read_of_missing _ _).1 hmissing
  lt hgrows hmissing hread := (Reference.followed_lt hgrows hread reference).1 hmissing

theorem progresses_resolve (reference : Reference) :
    Progresses (fun machine => (reference.resolve machine).result)
      (fun machine => reference.followed machine) where
  read hmissing := (reference.read_of_missing _ _).2 hmissing
  lt hgrows hmissing hread := (Reference.followed_lt hgrows hread reference).2 hmissing

-- Deducing missing cells one after the other comes to an end, whatever is written
-- into them: no more of them are missing than the reference has indirections.
theorem ends_indirections (reference : Reference) (choose : Strategy) (machine : Machine) :
    Ends (fun machine => (reference.locate machine).result) choose machine reference.indirections ∧
      Ends (fun machine => (reference.resolve machine).result) choose machine
        reference.indirections :=
  ⟨(progresses_locate reference).ends (fun other => reference.followed_le other) machine,
    (progresses_resolve reference).ends (fun other => reference.followed_le other) machine⟩

end Deduction

end SymbolicOperand
