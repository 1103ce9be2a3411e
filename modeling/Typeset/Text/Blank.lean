/-! White space, line breaks, and the cutting of text at either. -/

namespace Typeset.Text

/-- White space of every script, the four information separators included. -/
def isBlank (c : Char) : Bool :=
  let n := c.toNat
  (9 ≤ n && n ≤ 13) || (28 ≤ n && n ≤ 32) || n == 0x85 || n == 0xA0 || n == 0x1680 ||
    (0x2000 ≤ n && n ≤ 0x200A) || n == 0x2028 || n == 0x2029 || n == 0x202F || n == 0x205F ||
    n == 0x3000

/-- A character that ends a line by itself; a carriage return also takes the line feed after it. -/
def isLineBreak (c : Char) : Bool :=
  let n := c.toNat
  (10 ≤ n && n ≤ 13) || (28 ≤ n && n ≤ 30) || n == 0x85 || n == 0x2028 || n == 0x2029

theorem isBlank_of_isLineBreak {c : Char} (h : isLineBreak c = true) : isBlank c = true := by
  simp only [isLineBreak, isBlank, Bool.or_eq_true, Bool.and_eq_true, decide_eq_true_eq,
    beq_iff_eq] at *
  omega

/-- A text without its final characters of one class. -/
def trimRight (p : Char → Bool) (cs : List Char) : List Char :=
  (cs.reverse.dropWhile p).reverse

/-- A text without its first and final characters of one class. -/
def trim (p : Char → Bool) (cs : List Char) : List Char :=
  trimRight p (cs.dropWhile p)

/-- A text without the white space around it. -/
def strip (s : String) : String := String.ofList (trim isBlank s.toList)

/-- Whether a text is empty or all white space. -/
def isBlankText (s : String) : Bool := s.toList.all isBlank

/-- The maximal runs of characters outside a class, in order. -/
def pieces (p : Char → Bool) : List Char → List (List Char)
  | [] => []
  | c :: rest =>
    if p c then pieces p rest
    else match rest with
      | [] => [[c]]
      | d :: _ =>
        if p d then [c] :: pieces p rest
        else match pieces p rest with
          | [] => [[c]]
          | w :: ws => (c :: w) :: ws

/-- The words of a text: its maximal runs without white space. -/
def words (s : String) : List String := (pieces isBlank s.toList).map String.ofList

/-- The lines of a text with their endings. A text that ends in a line break has no line after
it. -/
def linesWithEnds : List Char → List (List Char)
  | [] => []
  | '\r' :: '\n' :: rest => ['\r', '\n'] :: linesWithEnds rest
  | c :: rest =>
    if isLineBreak c then [c] :: linesWithEnds rest
    else match linesWithEnds rest with
      | [] => [[c]]
      | l :: ls => (c :: l) :: ls

/-- A line without its ending. -/
def dropEnd : List Char → List Char
  | [] => []
  | c :: rest => if isLineBreak c then [] else c :: dropEnd rest

/-- The lines of a text without their endings. -/
def lines (cs : List Char) : List (List Char) := (linesWithEnds cs).map dropEnd

/-- The lines with their endings make up the text. -/
theorem flatten_linesWithEnds (cs : List Char) : (linesWithEnds cs).flatten = cs := by
  fun_induction linesWithEnds cs with
  | case1 => rfl
  | case2 rest ih => simp [ih]
  | case3 c rest _ hc ih => simp [ih]
  | case4 c rest _ hc hn ih => simpa [hn] using ih
  | case5 c rest _ hc l ls hn ih => simpa [hn] using ih

/-- Whether a text begins with another. -/
def startsWith (p s : List Char) : Bool := p.isPrefixOf s

/-- A text after one of its beginnings. -/
def after? : List Char → List Char → Option (List Char)
  | [], s => some s
  | c :: p, d :: s => if c = d then after? p s else none
  | _ :: _, [] => none

theorem after?_append (mark rest : List Char) : after? mark (mark ++ rest) = some rest := by
  induction mark with
  | nil => cases rest <;> rfl
  | cons c mark ih => rw [List.cons_append, after?, if_pos rfl, ih]

theorem eq_append_of_after? {p s r : List Char} (h : after? p s = some r) : s = p ++ r := by
  fun_induction after? p s with
  | case1 s => simpa using h
  | case2 p d s ih => simp [ih h]
  | case3 => simp at h
  | case4 => simp at h

/-! The first place where a text occurs in another. -/

section Search

/-- What stands before and after the first occurrence of a text. -/
def cut? (mark : List Char) : List Char → Option (List Char × List Char)
  | [] => if mark.isEmpty then some ([], []) else none
  | c :: rest =>
    match after? mark (c :: rest) with
    | some after => some ([], after)
    | none => (cut? mark rest).map fun (before, after) => (c :: before, after)

/-- Nothing is lost where a text is cut. -/
theorem eq_append_of_cut? {mark s before after : List Char}
    (h : cut? mark s = some (before, after)) : s = before ++ mark ++ after := by
  induction s generalizing before with
  | nil =>
    simp only [cut?] at h
    split at h <;> simp_all
  | cons c rest ih =>
    simp only [cut?] at h
    split at h
    · next r hr =>
      simp only [Option.some.injEq, Prod.mk.injEq] at h
      obtain ⟨rfl, rfl⟩ := h
      simpa using eq_append_of_after? hr
    · obtain ⟨⟨b, a⟩, hb, he⟩ := Option.map_eq_some_iff.1 h
      simp only [Prod.mk.injEq] at he
      obtain ⟨rfl, rfl⟩ := he
      simp [ih hb]

end Search

end Typeset.Text
