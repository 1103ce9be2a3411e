import Typeset.Math.Operand

/-! LaTeX math written as Typst math. -/

namespace Typeset.Math

open Latex (Node)

/-- Whether two characters side by side would be read as one name. -/
def fuses (c d : Char) : Bool :=
  (c.isAlpha && d.isAlphanum) || (c.isDigit && d.isAlpha)

/-- Characters with blanks where two of them would be read as one name. -/
def separate : List Char → List Char
  | c :: d :: rest =>
    if fuses c d then c :: ' ' :: separate (d :: rest) else c :: separate (d :: rest)
  | cs => cs

/-- Plain characters: quotation marks and slashes mean themselves, and every letter stands alone. -/
def plain (text : List Char) : List Char :=
  separate (text.flatMap fun c => if c == '"' || c == '/' then ['\\', c] else [c])

/-- The nodes that an argument consists of: a group without its braces. -/
def inside : Node → List Node
  | .group _ body => body
  | node => [node]

theorem sizeOf_inside_le (node : Node) : sizeOf (inside node) ≤ sizeOf node + 2 := by
  cases node <;> simp [inside] <;> omega

/-- Pieces of plain text put before the cells of a row: the last piece goes into the first cell, and
each piece before it is a cell of its own. -/
def piecesBefore : List (List Char) → List Node → List (List Node) → List (List Node)
  | [], cell, cells => cell :: cells
  | [text], cell, cells => (.chars text :: cell) :: cells
  | text :: more, cell, cells => [.chars text] :: piecesBefore more cell cells

theorem mem_piecesBefore {pieces : List (List Char)} {cell part : List Node}
    {cells : List (List Node)} (h : part ∈ piecesBefore pieces cell cells) :
    part ∈ cell :: cells ∨ ∃ text ∈ pieces, part = [.chars text] ∨ part = .chars text :: cell := by
  induction pieces with
  | nil => exact .inl h
  | cons text more ih =>
    cases more with
    | nil =>
      rcases List.mem_cons.mp h with rfl | h
      · exact .inr ⟨text, List.mem_cons_self, .inr rfl⟩
      · exact .inl (List.mem_cons_of_mem _ h)
    | cons next more =>
      rcases List.mem_cons.mp h with rfl | h
      · exact .inr ⟨text, List.mem_cons_self, .inl rfl⟩
      · rcases ih h with h | ⟨other, hmem, h⟩
        · exact .inl h
        · exact .inr ⟨other, List.mem_cons_of_mem _ hmem, h⟩

/-- The rows of an environment and their cells. An ampersand ends a cell, also one among plain
characters. -/
def rows : List Node → List (List (List Node))
  | [] => [[[]]]
  | node :: rest =>
    match rows rest with
    | (cell :: cells) :: others =>
      match node with
      | .command "\\" _ _ => [[]] :: (cell :: cells) :: others
      | .special ['&'] => ([] :: cell :: cells) :: others
      | .chars text => piecesBefore (text.splitOn '&') cell cells :: others
      | _ => ((node :: cell) :: cells) :: others
    | others => others

theorem sublist_of_mem_splitOn {text piece : List Char} {sign : Char}
    (h : piece ∈ text.splitOn sign) : piece.Sublist text := by
  induction text generalizing piece with
  | nil =>
    rw [List.splitOn_nil, List.mem_singleton] at h
    subst h
    exact List.nil_sublist _
  | cons c text ih =>
    obtain ⟨first, more, hsplit⟩ := List.exists_cons_of_ne_nil (List.splitOn_ne_nil sign text)
    rw [List.splitOn_cons_eq_if_modifyHead] at h
    split at h
    · rcases List.mem_cons.mp h with rfl | h
      · exact List.nil_sublist _
      · exact (ih h).cons c
    · rw [hsplit, List.modifyHead_cons] at h
      rw [hsplit] at ih
      rcases List.mem_cons.mp h with rfl | h
      · exact (ih List.mem_cons_self).cons_cons c
      · exact (ih (List.mem_cons_of_mem _ h)).cons c

theorem sizeOf_cell_le {nodes cell : List Node} {row : List (List Node)} (hr : row ∈ rows nodes)
    (hc : cell ∈ row) : sizeOf cell ≤ sizeOf nodes := by
  fun_induction rows nodes generalizing row cell with
  | case1 =>
    simp only [List.mem_singleton] at hr
    subst hr
    simp only [List.mem_singleton] at hc
    subst hc
    simp
  | case2 rest first cells others heq source arguments ih =>
    rw [heq] at ih
    rcases List.mem_cons.mp hr with rfl | hr
    · simp only [List.mem_singleton] at hc
      subst hc
      simp
      omega
    · have := ih hr hc
      simp
      omega
  | case3 rest first cells others heq ih =>
    rw [heq] at ih
    rcases List.mem_cons.mp hr with rfl | hr
    · rcases List.mem_cons.mp hc with rfl | hc
      · simp
        omega
      · have := ih (List.mem_cons_self ..) hc
        simp
        omega
    · have := ih (List.mem_cons_of_mem _ hr) hc
      simp
      omega
  | case4 rest first cells others heq text ih =>
    rw [heq] at ih
    rcases List.mem_cons.mp hr with rfl | hr
    · have hfirst := ih (List.mem_cons_self ..) (List.mem_cons_self ..)
      rcases mem_piecesBefore hc with hc | ⟨piece, hpiece, hc⟩
      · have := ih (List.mem_cons_self ..) hc
        simp
        omega
      · have := sizeOf_le_of_sublist (sublist_of_mem_splitOn hpiece)
        rcases hc with rfl | rfl
        · have hrest := sizeOf_le_of_sublist (List.nil_sublist rest)
          simp at hrest ⊢
          omega
        · simp
          omega
    · have := ih (List.mem_cons_of_mem _ hr) hc
      simp
      omega
  | case5 node rest first cells others heq _ _ _ ih =>
    rw [heq] at ih
    rcases List.mem_cons.mp hr with rfl | hr
    · rcases List.mem_cons.mp hc with rfl | hc
      · have := ih (List.mem_cons_self ..) (List.mem_cons_self ..)
        simp
        omega
      · have := ih (List.mem_cons_self ..) (List.mem_cons_of_mem _ hc)
        simp
        omega
    · have := ih (List.mem_cons_of_mem _ hr) hc
      simp
      omega
  | case6 node rest _ ih =>
    have := ih hr hc
    simp
    omega

/-- The part of an environment that is laid out: an array starts with a group for its columns if it
was given none before. -/
def layoutBody (name : String) (body : List Node) : List Node :=
  match body with
  | .group _ _ :: rest => if name == "array" then rest else body
  | _ => body

theorem sizeOf_layoutBody_le (name : String) (body : List Node) :
    sizeOf (layoutBody name body) ≤ sizeOf body := by
  unfold layoutBody
  split
  · split
    · simp
    · exact Nat.le_refl _
  · exact Nat.le_refl _

/-- The ways in which an environment is laid out. -/
inductive Layout
  | matrix (delimiters : Delimiters)
  | cases
  | lines

/-- How an environment is laid out. -/
def layout? (name : String) : Option Layout :=
  match matrices.lookup name with
  | some delimiters => some (.matrix delimiters)
  | none =>
    if name == "cases" then some .cases
    else if alignments.contains name then some .lines
    else none

/-- Texts with another text between them. -/
def joined (between : String) (texts : List (List Char)) : List Char :=
  (texts.intersperse between.toList).flatten

theorem joined_singleton (between : String) (p : List Char) : joined between [p] = p := by
  rw [joined, List.intersperse_singleton, List.flatten_singleton]

theorem joined_cons_cons (between : String) (p q : List Char) (ps : List (List Char)) :
    joined between (p :: q :: ps) = p ++ (between.toList ++ joined between (q :: ps)) := by
  rw [joined, List.intersperse_cons_cons, List.flatten_cons, List.flatten_cons, joined]

/-- An environment out of its written cells. Rows without anything in them are left out. -/
def Layout.text (layout : Layout) (cells : List (List (List Char))) : List Char :=
  let rows := cells.filter fun row => row.any fun cell => !cell.isEmpty
  match layout with
  | .matrix delimiters =>
    let before := match delimiters with
      | .usual => "mat("
      | .given text => "mat(delim: " ++ text ++ ", "
    before.toList ++ joined "; " (rows.map (joined ", ")) ++ [')']
  | .cases => "cases(".toList ++ joined ", " (rows.map (joined " & ")) ++ [')']
  | .lines => joined " \\ " (rows.map (joined " & "))

/-- A function applied to written arguments. -/
def applied (function : String) (arguments : List (List Char)) : List Char :=
  function.toList ++ '(' :: joined ", " arguments ++ [')']

mutual

/-- Nodes written after the pieces before them. -/
def writeAfter : List Node → Pieces → Except Obstacle Pieces
  | [], out => .ok out
  | .chars text :: rest, out => writeAfter rest (out.add (plain text))
  | .comment _ :: rest, out => writeAfter rest out
  | .special source :: rest, out =>
    writeAfter rest (out.add (if source = ['~'] then [' '] else source))
  | .group _ body :: rest, out => do writeAfter rest (out.attach (← write body))
  | .math _ body :: rest, out => do writeAfter rest (out.attach (← write body))
  | .environment name _ body :: rest, out => do
    match layout? name with
    | none => throw (.unsupportedEnvironment name)
    | some layout =>
      let cells ← (rows (layoutBody name body)).attach.mapM fun ⟨row, _⟩ =>
        row.attach.mapM fun ⟨cell, _⟩ => write cell
      writeAfter rest (out.attach (layout.text cells))
  | .command name _ arguments :: rest, out => do
    match _h : form name arguments rest with
    | .error e => throw e
    | .ok (.ready text, rest) => writeAfter rest (out.attach text)
    | .ok (.unary function node, rest) =>
      let text ← write (inside node)
      writeAfter rest (out.attach (applied function [text]))
    | .ok (.binary function first second, rest) =>
      let one ← write (inside first)
      let two ← write (inside second)
      writeAfter rest (out.attach (applied function [one, two]))
    | .ok (.root index radicand, rest) =>
      let two ← write (inside radicand)
      let one ← write (inside index)
      writeAfter rest (out.attach (applied "root" [one, two]))
termination_by nodes => 3 * sizeOf nodes
decreasing_by
  all_goals first
    | (simp only [List.cons.sizeOf_spec, Node.group.sizeOf_spec, Node.math.sizeOf_spec]
       omega)
    | (have hs := form_size _h
       have hi := sizeOf_inside_le
       simp only [Form.Below] at hs
       simp
       grind)
    | (have hs := sizeOf_cell_le ‹_› ‹_›
       have hb := sizeOf_layoutBody_le name body
       simp
       omega)

/-- Nodes written by themselves. -/
def write (nodes : List Node) : Except Obstacle (List Char) :=
  (writeAfter nodes {}).map Pieces.text
termination_by 3 * sizeOf nodes + 1

end

end Typeset.Math
