import Typeset.Render.Layout
import Typeset.Markup.Layout

/-! Indented text and the rows of a text. -/

namespace Typeset.Markup

/-! Indented text, character by character: a margin at its beginning and one after the end of each
line. -/

section Lines

variable {cs : List Char}

/-- Text with a margin after the end of each line. -/
def indented (levels : Nat) (cs : List Char) : List Char :=
  cs.flatMap fun c => if c = '\n' then '\n' :: margin levels else [c]

theorem indented_newline (levels : Nat) :
    indented levels ('\n' :: cs) = '\n' :: (margin levels ++ indented levels cs) := rfl

theorem indented_of_ne {c : Char} (levels : Nat) (h : c ≠ '\n') :
    indented levels (c :: cs) = c :: indented levels cs := by
  simp [indented, h]

theorem intercalate_map_margin (levels : Nat) (cs : List Char) :
    ['\n'].intercalate ((cs.splitOn '\n').map (margin levels ++ ·)) =
      margin levels ++ indented levels cs := by
  induction cs with
  | nil => simp [indented]
  | cons c rest ih =>
    have hne := List.splitOn_ne_nil '\n' rest
    rw [List.splitOn_cons_eq_if_modifyHead]
    by_cases hc : c = '\n'
    · subst hc
      rw [if_pos (beq_self_eq_true '\n'), List.map_cons,
        List.intercalate_cons_of_ne_nil (by simp), ih, indented_newline]
      simp
    · rw [if_neg (by simpa using hc), indented_of_ne levels hc]
      obtain ⟨line, lines, hl⟩ := List.exists_cons_of_ne_nil hne
      rw [hl] at ih ⊢
      cases lines with
      | nil => simp_all
      | cons next lines =>
        simp only [List.map_cons, List.modifyHead_cons, List.intercalate_cons_cons,
          List.append_assoc, List.append_cancel_left_eq] at ih ⊢
        rw [List.cons_append, ih]

theorem toList_indent (text : String) (level : Int) :
    (indent text level).toList =
      margin level.toNat ++ indented level.toNat text.toList := by
  rw [indent, String.toList_ofList, intercalate_map_margin]

theorem indented_zero (cs : List Char) : indented 0 cs = cs := by
  induction cs with
  | nil => rfl
  | cons c rest ih =>
    by_cases hc : c = '\n'
    · subst hc
      rw [indented_newline, ih]
      rfl
    · rw [indented_of_ne 0 hc, ih]

theorem indent_zero (text : String) : indent text 0 = text := by
  rw [← String.toList_inj, toList_indent, Int.toNat_zero, indented_zero]
  rfl

end Lines

/-! The rows of a text: what stands between its line breaks. -/

section Rows

variable {parts : List String}

/-- The rows of a text. A text has at least one, and one more than line breaks. -/
def textRows (s : String) : List (List Char) := s.toList.splitOn '\n'

theorem textRows_injective : Function.Injective textRows := by
  intro s t h
  have hjoined (s : String) : ['\n'].intercalate (textRows s) = s.toList :=
    List.intercalate_splitOn '\n'
  rw [← String.toList_inj, ← hjoined s, ← hjoined t, h]

theorem textRows_newline (s t : String) : textRows (s ++ "\n" ++ t) = textRows s ++ textRows t := by
  have hlist : (s ++ "\n" ++ t).toList = s.toList ++ '\n' :: t.toList := by simp
  rw [textRows, hlist, List.splitOn_append_cons_self, textRows, textRows]

theorem textRows_lines (h : parts ≠ []) :
    textRows (Render.lines parts) = parts.flatMap textRows := by
  induction parts with
  | nil => exact (h rfl).elim
  | cons part rest ih =>
    by_cases hrest : rest = []
    · subst hrest
      rw [Render.lines, String.intercalate_singleton, List.flatMap_singleton]
    · rw [Render.lines, String.intercalate_cons_of_ne_nil hrest, textRows_newline,
        List.flatMap_cons, ← ih hrest, Render.lines]

/-- What stands before a text in its first row. -/
theorem textRows_append_of_row {s : String} (h : '\n' ∉ s.toList) (t : String) :
    textRows (s ++ t) = (textRows t).modifyHead (s.toList ++ ·) := by
  have hsplit (row cs : List Char) (hrow : '\n' ∉ row) :
      (row ++ cs).splitOn '\n' = (cs.splitOn '\n').modifyHead (row ++ ·) := by
    induction row with
    | nil =>
      obtain ⟨first, more, hrows⟩ := List.exists_cons_of_ne_nil (List.splitOn_ne_nil '\n' cs)
      rw [List.nil_append, hrows]
      rfl
    | cons c row ih =>
      obtain ⟨hc, hrow⟩ := List.ne_and_not_mem_of_not_mem_cons hrow
      rw [List.cons_append, List.splitOn_cons_eq_if_modifyHead,
        if_neg (by simpa using Ne.symm hc), ih hrow, List.modifyHead_modifyHead]
      rfl
  rw [textRows, String.toList_append, hsplit s.toList t.toList h, textRows]

theorem newline_notMem_splitOn (cs : List Char) : ∀ row ∈ cs.splitOn '\n', '\n' ∉ row := by
  induction cs with
  | nil => simp
  | cons c rest ih =>
    rw [List.splitOn_cons_eq_if_modifyHead]
    by_cases hc : c = '\n'
    · subst hc
      rw [if_pos (beq_self_eq_true '\n')]
      exact List.forall_mem_cons.mpr ⟨List.not_mem_nil, ih⟩
    · obtain ⟨row, more, hrows⟩ := List.exists_cons_of_ne_nil (List.splitOn_ne_nil '\n' rest)
      rw [hrows] at ih
      obtain ⟨hrow, hmore⟩ := List.forall_mem_cons.mp ih
      rw [hrows, if_neg (by simpa using hc), List.modifyHead_cons]
      refine List.forall_mem_cons.mpr ⟨?_, hmore⟩
      exact List.not_mem_cons_of_ne_of_not_mem (Ne.symm hc) hrow

/-- Rows put together to a text. -/
def joined (rows : List (List Char)) : String := String.ofList (['\n'].intercalate rows)

theorem textRows_joined {rows : List (List Char)} (hne : rows ≠ [])
    (h : ∀ row ∈ rows, '\n' ∉ row) : textRows (joined rows) = rows := by
  rw [textRows, joined, String.toList_ofList, List.splitOn_intercalate '\n' h hne]

/-- Where two texts meet, the last row of the one and the first row of the other are one row. -/
theorem textRows_append (s t : String) : ∃ before last first after,
    textRows s = before ++ [last] ∧ textRows t = first :: after ∧
      textRows (s ++ t) = before ++ (last ++ first) :: after := by
  have hsplit (cs ds : List Char) : ∃ before last first after,
      cs.splitOn '\n' = before ++ [last] ∧ ds.splitOn '\n' = first :: after ∧
        (cs ++ ds).splitOn '\n' = before ++ (last ++ first) :: after := by
    induction cs with
    | nil =>
      obtain ⟨first, after, hds⟩ := List.exists_cons_of_ne_nil (List.splitOn_ne_nil '\n' ds)
      exact ⟨[], [], first, after, rfl, hds, hds⟩
    | cons c cs ih =>
      obtain ⟨before, last, first, after, hcs, hds, hboth⟩ := ih
      rw [List.cons_append, List.splitOn_cons_eq_if_modifyHead,
        List.splitOn_cons_eq_if_modifyHead, hcs, hboth]
      by_cases hc : c = '\n'
      · rw [if_pos (by simpa using hc), if_pos (by simpa using hc)]
        exact ⟨[] :: before, last, first, after, rfl, hds, rfl⟩
      · rw [if_neg (by simpa using hc), if_neg (by simpa using hc)]
        cases before with
        | nil => exact ⟨[], c :: last, first, after, rfl, hds, rfl⟩
        | cons row before => exact ⟨(c :: row) :: before, last, first, after, rfl, hds, rfl⟩
  rw [textRows, textRows, textRows, String.toList_append]
  exact hsplit s.toList t.toList

theorem newline_notMem_margin (level : Nat) : '\n' ∉ margin level := by
  induction level with
  | zero => simp [margin]
  | succ n ih => simp [margin, List.replicate_succ, unit]

theorem textRows_indent (s : String) (level : Int) :
    textRows (indent s level) = (textRows s).map (margin level.toNat ++ ·) := by
  rw [textRows, indent, String.toList_ofList]
  refine List.splitOn_intercalate '\n' (fun row hrow => ?_) (by simp)
  obtain ⟨piece, hpiece, rfl⟩ := List.mem_map.mp hrow
  rw [List.mem_append, not_or]
  exact ⟨newline_notMem_margin _, newline_notMem_splitOn _ piece hpiece⟩

theorem margin_add (m n : Nat) : margin (m + n) = margin n ++ margin m := by
  rw [margin, Nat.add_comm, ← List.replicate_append_replicate, List.flatten_append, margin, margin]

/-- Levels add up. -/
theorem indent_indent (s : String) (m n : Nat) :
    indent (indent s m) n = indent s ((m + n : Nat) : Int) := by
  apply textRows_injective
  simp only [textRows_indent, Int.toNat_natCast, List.map_map]
  refine List.map_congr_left fun row _ => ?_
  rw [Function.comp_apply, margin_add, List.append_assoc]

/-- A text is pushed in line by line. -/
theorem indent_lines (h : parts ≠ []) (level : Int) :
    indent (Render.lines parts) level = Render.lines (parts.map (indent · level)) := by
  apply textRows_injective
  rw [textRows_indent, textRows_lines h, textRows_lines (by simpa using h), List.map_flatMap,
    List.flatMap_map]
  simp only [textRows_indent]

theorem indentValue_str (s : String) (level : Int) :
    indentValue (.str s) (.int level) = .ok (.str (indent s level)) := by
  by_cases h : level = 0
  · subst h
    rw [indent_zero]
    rfl
  · rw [indentValue, if_pos (by simpa [Value.truthy] using h)]
    rfl

end Rows

end Typeset.Markup
