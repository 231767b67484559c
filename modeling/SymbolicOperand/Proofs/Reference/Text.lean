import Std.Data.String.ToInt
import SymbolicOperand.Reference.Defs

namespace SymbolicOperand

-- A mark that two texts do not contain shows where they end.
theorem append_mark_inj {α : Type} {mark : α} {one other first second : List α}
    (hone : mark ∉ one) (hother : mark ∉ other)
    (h : one ++ mark :: first = other ++ mark :: second) : one = other ∧ first = second := by
  induction one generalizing other with
  | nil =>
      cases other with
      | nil => exact ⟨rfl, (List.cons.inj h).2⟩
      | cons c tail => exact absurd ((List.cons.inj h).1 ▸ List.mem_cons_self) hother
  | cons c tail ih =>
      cases other with
      | nil => exact absurd ((List.cons.inj h).1 ▸ List.mem_cons_self) hone
      | cons d rest =>
          obtain ⟨rfl, htail⟩ := List.cons.inj h
          have hrest := ih (List.not_mem_of_not_mem_cons hone) (List.not_mem_of_not_mem_cons hother)
          obtain ⟨rfl, hend⟩ := hrest htail
          exact ⟨rfl, hend⟩

section Numeral

variable {first second : List Char}

theorem bracket_notMem_toDigits (n : Nat) : ')' ∉ Nat.toDigits 10 n := by
  intro hmem
  exact absurd (Nat.isDigit_of_mem_toDigits (by decide) (by decide) hmem) (by decide)

theorem bracket_notMem_repr (n : Int) : ')' ∉ n.repr.toList := by
  rw [Int.repr_eq_if]
  split
  · simp [bracket_notMem_toDigits]
  · simp [bracket_notMem_toDigits]

-- A numeral is read up to the bracket behind it.
theorem repr_append_inj {m n : Int}
    (h : m.repr.toList ++ ')' :: first = n.repr.toList ++ ')' :: second) :
    m = n ∧ first = second := by
  obtain ⟨hnumeral, hrest⟩ := append_mark_inj (bracket_notMem_repr m) (bracket_notMem_repr n) h
  exact ⟨Int.repr_injective (String.toList_inj.mp hnumeral), hrest⟩

theorem offset_append_inj {m n : Int16}
    (h : (toString m).toList ++ ')' :: first = (toString n).toList ++ ')' :: second) :
    m = n ∧ first = second := by
  obtain ⟨hvalue, hrest⟩ := repr_append_inj (m := m.toInt) (n := n.toInt) h
  exact ⟨Int16.toInt_inj.mp hvalue, hrest⟩

theorem Felt.text_append_inj {a b : Felt}
    (h : a.text.toList ++ ')' :: first = b.text.toList ++ ')' :: second) :
    a = b ∧ first = second := by
  obtain ⟨hvalue, hrest⟩ := repr_append_inj (m := (a.val : Int)) (n := (b.val : Int)) h
  exact ⟨Fin.ext (Int.ofNat.inj hvalue), hrest⟩

end Numeral

namespace Operator

theorem symbol_inj {operator other : Operator} (h : operator.symbol = other.symbol) :
    operator = other := by
  revert h
  cases operator <;> cases other <;> decide

theorem blank_notMem_symbol (operator : Operator) : ' ' ∉ operator.symbol.toList := by
  cases operator <;> decide

-- The blanks on either side tell an operator from a sign.
theorem symbol_append_inj {operator other : Operator} {first second : List Char}
    (h : ' ' :: (operator.symbol.toList ++ ' ' :: first) =
      ' ' :: (other.symbol.toList ++ ' ' :: second)) :
    operator = other ∧ first = second := by
  obtain ⟨hsymbol, hrest⟩ :=
    append_mark_inj operator.blank_notMem_symbol other.blank_notMem_symbol (List.cons.inj h).2
  exact ⟨symbol_inj (String.toList_inj.mp hsymbol), hrest⟩

end Operator

namespace Reference

-- What the text of a reference begins with tells its form.
inductive Form where
  | cell (base : Register)
  | deref
  | doubleDeref
  | immediate
  | binary
  deriving DecidableEq

def Form.name : Form → String
  | cell .ap => "ApCellRef"
  | cell .fp => "FpCellRef"
  | deref => "Deref"
  | doubleDeref => "DoubleDeref"
  | immediate => "Immediate"
  | binary => "BinaryOp"

def form : Reference → Form
  | cell c => .cell c.base
  | deref _ => .deref
  | doubleDeref .. => .doubleDeref
  | immediate _ => .immediate
  | binary .. => .binary

-- What stands between the outer brackets.
def arguments : Reference → String
  | cell c => toString c.offset
  | deref inner => inner.text
  | doubleDeref inner offset => "Deref(" ++ inner.text ++ "), " ++ toString offset
  | immediate number => number.text
  | binary operator lhs rhs => lhs.text ++ " " ++ operator.symbol ++ " " ++ rhs.text

theorem text_eq (reference : Reference) :
    reference.text = reference.form.name ++ "(" ++ reference.arguments ++ ")" := by
  cases reference with
  | cell c =>
      obtain ⟨base, offset⟩ := c
      cases base with
      | ap => rfl
      | fp => rfl
  | deref inner => rfl
  | doubleDeref inner offset =>
      have htext : (doubleDeref inner offset).text =
          "DoubleDeref(Deref(" ++ inner.text ++ "), " ++ toString offset ++ ")" := rfl
      simp [htext, form, Form.name, arguments, ← String.append_assoc]
  | immediate number => rfl
  | binary operator lhs rhs =>
      have htext : (binary operator lhs rhs).text =
          "BinaryOp(" ++ lhs.text ++ " " ++ operator.symbol ++ " " ++ rhs.text ++ ")" := rfl
      simp [htext, form, Form.name, arguments, ← String.append_assoc]

namespace Form

theorem name_inj {form other : Form} (h : form.name = other.name) : form = other := by
  revert h
  rcases form with ⟨_ | _⟩ | _ | _ | _ | _ <;> rcases other with ⟨_ | _⟩ | _ | _ | _ | _ <;> decide

theorem bracket_notMem_name (form : Form) : '(' ∉ form.name.toList := by
  rcases form with ⟨_ | _⟩ | _ | _ | _ | _ <;> decide

end Form

variable {a b : Reference} {first second : List Char}

-- Two texts that agree as far as they go begin with one name.
theorem form_eq_of_text_append (h : a.text.toList ++ first = b.text.toList ++ second) :
    a.form = b.form ∧
      a.arguments.toList ++ ')' :: first = b.arguments.toList ++ ')' :: second := by
  simp only [text_eq, String.toList_append, List.append_assoc] at h
  obtain ⟨hname, hrest⟩ :=
    append_mark_inj (Form.bracket_notMem_name _) (Form.bracket_notMem_name _) h
  exact ⟨Form.name_inj (String.toList_inj.mp hname), hrest⟩

-- The text of a reference tells where it ends, whatever follows.
theorem text_append_inj (h : a.text.toList ++ first = b.text.toList ++ second) :
    a = b ∧ first = second := by
  induction a generalizing b first second with
  | cell c =>
      obtain ⟨hform, harguments⟩ := form_eq_of_text_append h
      cases b with
      | cell d =>
          obtain ⟨base, offset⟩ := c
          obtain ⟨base', offset'⟩ := d
          cases hform
          obtain ⟨hoffset, hrest⟩ := offset_append_inj harguments
          exact ⟨congrArg (fun offset => cell { base, offset }) hoffset, hrest⟩
      | _ => cases hform
  | deref inner ih =>
      obtain ⟨hform, harguments⟩ := form_eq_of_text_append h
      cases b with
      | deref other =>
          obtain ⟨rfl, hrest⟩ := ih harguments
          exact ⟨rfl, (List.cons.inj hrest).2⟩
      | _ => cases hform
  | doubleDeref inner offset ih =>
      obtain ⟨hform, harguments⟩ := form_eq_of_text_append h
      cases b with
      | doubleDeref other offset' =>
          simp only [arguments, String.toList_append, List.append_assoc, List.append_right_inj]
            at harguments
          obtain ⟨rfl, hoffsets⟩ := ih harguments
          obtain ⟨rfl, hrest⟩ := offset_append_inj ((List.append_right_inj _).mp hoffsets)
          exact ⟨rfl, hrest⟩
      | _ => cases hform
  | immediate number =>
      obtain ⟨hform, harguments⟩ := form_eq_of_text_append h
      cases b with
      | immediate other =>
          obtain ⟨rfl, hrest⟩ := Felt.text_append_inj harguments
          exact ⟨rfl, hrest⟩
      | _ => cases hform
  | binary operator lhs rhs ihl ihr =>
      obtain ⟨hform, harguments⟩ := form_eq_of_text_append h
      cases b with
      | binary operator' lhs' rhs' =>
          simp only [arguments, String.toList_append, List.append_assoc] at harguments
          obtain ⟨rfl, hsymbol⟩ := ihl harguments
          obtain ⟨rfl, hright⟩ := Operator.symbol_append_inj hsymbol
          obtain ⟨rfl, hrest⟩ := ihr hright
          exact ⟨rfl, (List.cons.inj hrest).2⟩
      | _ => cases hform

theorem text_inj : a.text = b.text ↔ a = b := by
  refine ⟨?_, congrArg text⟩
  intro h
  exact (text_append_inj (congrArg (·.toList ++ []) h)).1

theorem eq_of_text_prefix (h : a.text.toList <+: b.text.toList) : a = b := by
  obtain ⟨rest, hrest⟩ := h
  rw [← List.append_nil b.text.toList] at hrest
  exact (text_append_inj hrest).1

theorem toList_text_binary (operator : Operator) (lhs rhs : Reference) :
    (binary operator lhs rhs).text.toList = "BinaryOp(".toList ++
      (lhs.text.toList ++ (" ".toList ++ (operator.symbol.toList ++ (" ".toList ++
        (rhs.text.toList ++ ")".toList))))) := by
  have htext : (binary operator lhs rhs).text =
      "BinaryOp(" ++ lhs.text ++ " " ++ operator.symbol ++ " " ++ rhs.text ++ ")" := rfl
  simp only [htext, String.toList_append, List.append_assoc]

-- No two references share a text, and the text of none begins the text of another. What is
-- printed of an operation therefore shows its operands: only the left one can be read behind
-- the bracket, and behind the operator only the right one.
theorem text_unambiguous (a b : Reference) :
    (a.text = b.text ↔ a = b) ∧
      (a.text.toList <+: b.text.toList → a = b) ∧
      (∀ operator lhs rhs rest,
        (binary operator lhs rhs).text = "BinaryOp(" ++ a.text ++ rest → a = lhs) ∧
      ∀ operator lhs rhs symbol rest,
        (binary operator lhs rhs).text =
            "BinaryOp(" ++ a.text ++ " " ++ Operator.symbol symbol ++ " " ++ b.text ++ rest →
          symbol = operator ∧ a = lhs ∧ b = rhs ∧ rest = ")" := by
  refine ⟨text_inj, eq_of_text_prefix, ?_, ?_⟩
  · intro operator lhs rhs rest h
    have hlists := congrArg String.toList h
    rw [toList_text_binary] at hlists
    simp only [String.toList_append, List.append_assoc, List.append_right_inj] at hlists
    exact (text_append_inj hlists).1.symm
  · intro operator lhs rhs symbol rest h
    have hlists := congrArg String.toList h
    rw [toList_text_binary] at hlists
    simp only [String.toList_append, List.append_assoc, List.append_right_inj] at hlists
    obtain ⟨hleft, hsymbol⟩ := text_append_inj hlists
    obtain ⟨hoperator, hright⟩ := Operator.symbol_append_inj hsymbol
    obtain ⟨hoperand, hrest⟩ := text_append_inj hright
    exact ⟨hoperator.symm, hleft.symm, hoperand.symm, String.toList_inj.mp hrest.symm⟩

-- The same character is a sign twice and an operator once.
theorem text_unambiguous_sign :
    let left := cell { base := .ap, offset := -1 }
    let right := doubleDeref (cell { base := .fp, offset := 2 }) (-3)
    let text := "BinaryOp(ApCellRef(-1) - DoubleDeref(Deref(FpCellRef(2)), -3))"
    (binary .sub left right).text = text ∧
      ∀ operator lhs rhs, (binary operator lhs rhs).text = text →
        .sub = operator ∧ left = lhs ∧ right = rhs := by
  intro left right text
  refine ⟨by decide, ?_⟩
  intro operator lhs rhs h
  have hsplit : text = "BinaryOp(" ++ left.text ++ " " ++ Operator.sub.symbol ++ " " ++
      right.text ++ ")" := by decide
  obtain ⟨-, -, -, hoperands⟩ := text_unambiguous left right
  obtain ⟨hoperator, hleft, hright, -⟩ := hoperands operator lhs rhs .sub ")" (h.trans hsplit)
  exact ⟨hoperator, hleft, hright⟩

end Reference

end SymbolicOperand
