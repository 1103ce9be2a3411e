import Mathlib.Data.Nat.Digits.Lemmas
import Typeset.Json.Printer
import Typeset.Text.Hex

/-! The JSON text of a value holds no control characters, whatever texts are in it; so it is a
single line. -/

namespace Typeset.Json

variable {v : Value} {items : List Value} {fields : List (String × Value)} {c : Char}

/-- The numbers with a fraction in a value are spelled in a certain way. -/
inductive Reals (P : String → Prop) : Value → Prop
  | null : Reals P .null
  | bool (b : Bool) : Reals P (.bool b)
  | int (n : Int) : Reals P (.int n)
  | real {spelling : String} (h : P spelling) : Reals P (.real spelling)
  | str (s : String) : Reals P (.str s)
  | list {items : List Value} (h : ∀ v ∈ items, Reals P v) : Reals P (.list items)
  | object {fields : List (String × Value)} (h : ∀ f ∈ fields, Reals P f.2) :
    Reals P (.object fields)

/-- The numbers in a value are spelled without a line break. -/
def Spelled : Value → Prop := Reals fun spelling => '\n' ∉ spelling.toList

theorem notMem_intercalate {c : Char} {separator : String} {parts : List String}
    (hs : c ∉ separator.toList) (h : ∀ part ∈ parts, c ∉ part.toList) :
    c ∉ (separator.intercalate parts).toList := by
  induction parts with
  | nil => simp
  | cons part rest ih =>
    obtain ⟨hpart, hrest⟩ := List.forall_mem_cons.mp h
    by_cases hne : rest = []
    · rwa [hne, String.intercalate_singleton]
    · rw [String.intercalate_cons_of_ne_nil hne]
      simp [hpart, hs, ih hrest, -String.toList_intercalate]

/-- Text without control characters. -/
def Clear (cs : List Char) : Prop := ∀ c ∈ cs, 0x20 ≤ c.toNat

theorem Clear.notMem {cs : List Char} (h : Clear cs) (hc : c.toNat < 0x20) : c ∉ cs :=
  fun hmem => absurd (h c hmem) (Nat.not_le.mpr hc)

theorem clear_hexDigit {n : Nat} (h : n < 16) : 0x20 ≤ (Text.hexDigit n).toNat := by
  interval_cases n <;> decide

theorem clear_hexDigits (width n : Nat) : Clear (Text.hexDigits width n) := by
  induction width generalizing n with
  | zero => exact List.forall_mem_nil _
  | succ width ih =>
    exact List.forall_mem_append.mpr
      ⟨ih _, List.forall_mem_singleton.mpr (clear_hexDigit (Nat.mod_lt n (by decide)))⟩

theorem clear_escapeChar (c : Char) : Clear (escapeChar c) := by
  unfold escapeChar
  split_ifs with hmark _ _ _ _ _ hcontrol
  · obtain rfl | rfl : c = '"' ∨ c = '\\' := by simpa using hmark
    · simp [Clear]
    · simp [Clear]
  · simp [Clear]
  · simp [Clear]
  · simp [Clear]
  · simp [Clear]
  · simp [Clear]
  · exact List.forall_mem_cons.mpr
      ⟨by decide, List.forall_mem_cons.mpr ⟨by decide, clear_hexDigits _ _⟩⟩
  · exact List.forall_mem_singleton.mpr (Nat.not_lt.mp hcontrol)

theorem clear_string (s : String) : Clear (string s).toList := by
  rw [string, String.toList_ofList]
  refine List.forall_mem_cons.mpr ⟨by decide, List.forall_mem_append.mpr ⟨?_, by simp⟩⟩
  intro d hd
  obtain ⟨c, -, hd⟩ := List.mem_flatMap.mp hd
  exact clear_escapeChar c d hd

theorem clear_of_isDigit (h : c.isDigit = true) : 0x20 ≤ c.toNat := by
  simp only [Char.isDigit, Bool.and_eq_true, decide_eq_true_eq] at h
  have hzero : 48 ≤ c.toNat := h.1
  omega

theorem clear_decimal (n : Int) : Clear (Text.decimal n).toList := by
  have hdigits (n : Nat) : Clear (Nat.toDigits 10 n) := fun c hc =>
    clear_of_isDigit (Text.isDigit_of_mem_toDigits hc)
  unfold Text.decimal
  split
  · simp only [String.toList_append, String.toList_ofList]
    exact List.forall_mem_append.mpr ⟨by simp, hdigits _⟩
  · rw [String.toList_ofList]
    exact hdigits _

theorem mem_lineItems {text : String} (h : text ∈ lineItems items) :
    ∃ v ∈ items, text = line v := by
  induction items with
  | nil => simp [lineItems] at h
  | cons v rest ih =>
    rw [lineItems] at h
    obtain rfl | h := List.mem_cons.mp h
    · exact ⟨v, List.mem_cons_self, rfl⟩
    · obtain ⟨w, hw, rfl⟩ := ih h
      exact ⟨w, List.mem_cons_of_mem _ hw, rfl⟩

theorem mem_lineFields {text : String} (h : text ∈ lineFields fields) :
    ∃ f ∈ fields, text = string f.1 ++ ": " ++ line f.2 := by
  induction fields with
  | nil => simp [lineFields] at h
  | cons f rest ih =>
    obtain ⟨key, v⟩ := f
    rw [lineFields] at h
    obtain rfl | h := List.mem_cons.mp h
    · exact ⟨(key, v), List.mem_cons_self, rfl⟩
    · obtain ⟨f, hf, rfl⟩ := ih h
      exact ⟨f, List.mem_cons_of_mem _ hf, rfl⟩

theorem notMem_real {c : Char} (hc : c.toNat < 0x20) {spelling : String}
    (h : c ∉ spelling.toList) : c ∉ (real spelling).toList := by
  unfold real
  split
  · exact Clear.notMem (by simp [Clear]) hc
  · exact Clear.notMem (by simp [Clear]) hc
  · exact h

/-- A control character can come into the text of a value only with a number. -/
theorem control_notMem_line (hc : c.toNat < 0x20)
    (h : Reals (fun spelling => c ∉ spelling.toList) v) : c ∉ (line v).toList := by
  have hcomma : c ∉ ", ".toList := Clear.notMem (by simp [Clear]) hc
  have hcolon : c ≠ ':' ∧ c ≠ ' ' := by constructor <;> rintro rfl <;> simp at hc
  have hsquare : c ≠ '[' ∧ c ≠ ']' := by constructor <;> rintro rfl <;> simp at hc
  have hcurly : c ≠ '\x7b' ∧ c ≠ '\x7d' := by constructor <;> rintro rfl <;> simp at hc
  induction h with
  | null => exact Clear.notMem (by simp [line, Clear]) hc
  | bool b => exact Clear.notMem (by cases b <;> simp [line, Clear]) hc
  | int n => exact (clear_decimal n).notMem hc
  | real h => exact notMem_real hc h
  | str s => exact (clear_string s).notMem hc
  | @list items _ ih =>
    have hparts : c ∉ (", ".intercalate (lineItems items)).toList := by
      refine notMem_intercalate hcomma fun text htext => ?_
      obtain ⟨v, hv, rfl⟩ := mem_lineItems htext
      exact ih v hv
    simp [line, hparts, hsquare, -String.toList_intercalate]
  | @object fields _ ih =>
    have hparts : c ∉ (", ".intercalate (lineFields fields)).toList := by
      refine notMem_intercalate hcomma fun text htext => ?_
      obtain ⟨f, hf, rfl⟩ := mem_lineFields htext
      simp [(clear_string f.1).notMem hc, hcolon, ih f hf]
    simp [line, hparts, hcurly, -String.toList_intercalate]

end Typeset.Json
