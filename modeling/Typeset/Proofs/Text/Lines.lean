import Typeset.Text.Blank

/-! Lines set one below the other, and cut apart again. -/

namespace Typeset.Text

variable {line rest : List Char} {ls : List (List Char)}

theorem linesWithEnds_append_newline (h : ∀ c ∈ line, isLineBreak c = false) :
    linesWithEnds (line ++ '\n' :: rest) = (line ++ ['\n']) :: linesWithEnds rest := by
  induction line with
  | nil => rfl
  | cons c line ih =>
    have hc := h c List.mem_cons_self
    have hr : c ≠ '\r' := by
      rintro rfl
      cases hc
    have htail := ih fun a ha => h a (List.mem_cons_of_mem c ha)
    rw [List.cons_append, linesWithEnds.eq_def]
    simp [hr, hc, htail]

theorem linesWithEnds_unbroken (hne : line ≠ []) (h : ∀ c ∈ line, isLineBreak c = false) :
    linesWithEnds line = [line] := by
  induction line with
  | nil => exact absurd rfl hne
  | cons c line ih =>
    have hc := h c List.mem_cons_self
    have hr : c ≠ '\r' := by
      rintro rfl
      cases hc
    rw [linesWithEnds.eq_def]
    cases line with
    | nil => simp [hc, linesWithEnds]
    | cons d line =>
      have htail := ih (List.cons_ne_nil d line) fun a ha => h a (List.mem_cons_of_mem c ha)
      simp [hr, hc, htail]

/-- A first character begins the first line; the other lines are lines of the rest, and all of them
but its first if the character ends no line. -/
theorem linesWithEnds_cons (c : Char) (rest : List Char) :
    ∃ first more, linesWithEnds (c :: rest) = first :: more ∧ first.head? = some c ∧
      (∀ l ∈ more, l ∈ linesWithEnds rest) ∧
      (isLineBreak c = false → more = (linesWithEnds rest).tail) := by
  rw [linesWithEnds.eq_def]
  split
  · cases ‹_ :: _ = []›
  next rest' heq =>
    cases heq
    refine ⟨_, _, rfl, rfl, fun l hl => ?_, nofun⟩
    rw [linesWithEnds.eq_def]
    exact List.mem_cons_of_mem _ hl
  next c' rest' _ heq =>
    cases heq
    by_cases hc : isLineBreak c = true
    · rw [if_pos hc]
      exact ⟨_, _, rfl, rfl, fun l hl => hl, fun hfree => by simp [hc] at hfree⟩
    · rw [if_neg hc]
      cases linesWithEnds rest with
      | nil => exact ⟨_, _, rfl, rfl, fun l hl => hl, fun _ => rfl⟩
      | cons l ls => exact ⟨_, _, rfl, rfl, fun m hm => List.mem_cons_of_mem l hm, fun _ => rfl⟩

theorem dropEnd_append (h : ∀ c ∈ line, isLineBreak c = false) :
    dropEnd (line ++ rest) = line ++ dropEnd rest := by
  induction line with
  | nil => rfl
  | cons c line ih =>
    have htail := ih fun a ha => h a (List.mem_cons_of_mem c ha)
    simp [dropEnd, h c List.mem_cons_self, htail]

theorem lines_append_newline (h : ∀ c ∈ line, isLineBreak c = false) :
    lines (line ++ '\n' :: rest) = line :: lines rest := by
  have hend : dropEnd ['\n'] = [] := rfl
  rw [lines, linesWithEnds_append_newline h, List.map_cons, dropEnd_append h, hend,
    List.append_nil, ← lines]

theorem lines_unbroken (hne : line ≠ []) (h : ∀ c ∈ line, isLineBreak c = false) :
    lines line = [line] := by
  have hdrop : dropEnd (line ++ []) = line ++ dropEnd [] := dropEnd_append h
  rw [List.append_nil, show dropEnd [] = [] from rfl, List.append_nil] at hdrop
  rw [lines, linesWithEnds_unbroken hne h, List.map_singleton, hdrop]

/-- Lines set one below the other are cut apart again, whether or not the last one is ended. -/
theorem lines_intercalate {ending : List Char} (hls : ls ≠ [])
    (h : ∀ line ∈ ls, line ≠ [] ∧ ∀ c ∈ line, isLineBreak c = false)
    (hend : ending = [] ∨ ending = ['\n']) :
    lines (['\n'].intercalate ls ++ ending) = ls := by
  induction ls with
  | nil => exact absurd rfl hls
  | cons line ls ih =>
    obtain ⟨hne, hline⟩ := h line List.mem_cons_self
    cases ls with
    | nil =>
      obtain rfl | rfl := hend
      · rw [List.intercalate_singleton, List.append_nil, lines_unbroken hne hline]
      · rw [List.intercalate_singleton, lines_append_newline hline]
        rfl
    | cons next ls =>
      have htail := ih (List.cons_ne_nil next ls) fun l hl => h l (List.mem_cons_of_mem line hl)
      rw [List.intercalate_cons_cons, List.append_assoc, List.append_assoc, List.singleton_append,
        lines_append_newline hline, htail]

/-- Lines set one below the other are cut apart again, but for an empty one at the end. -/
theorem lines_intercalate_unbroken (h : ∀ line ∈ ls, ∀ c ∈ line, isLineBreak c = false) :
    lines (['\n'].intercalate ls) = ls ∨ ls = lines (['\n'].intercalate ls) ++ [[]] := by
  induction ls with
  | nil => exact .inl rfl
  | cons line ls ih =>
    obtain ⟨hline, hmore⟩ := List.forall_mem_cons.mp h
    cases ls with
    | nil =>
      rw [List.intercalate_singleton]
      by_cases hne : line = []
      · exact .inr (by rw [hne]; rfl)
      · exact .inl (lines_unbroken hne hline)
    | cons next ls =>
      rw [List.intercalate_cons_cons, List.append_assoc, List.singleton_append,
        lines_append_newline hline]
      obtain htail | htail := ih hmore
      · left
        rw [htail]
      · right
        rw [List.cons_append, ← htail]

/-- An empty line at the end shows as a line end. -/
theorem intercalate_append_emptyLine (h : ls ≠ []) :
    ['\n'].intercalate (ls ++ [[]]) = ['\n'].intercalate ls ++ ['\n'] := by
  induction ls with
  | nil => exact absurd rfl h
  | cons line ls ih =>
    cases ls with
    | nil =>
      rw [List.singleton_append, List.intercalate_cons_cons, List.intercalate_singleton,
        List.intercalate_singleton, List.append_nil]
    | cons next ls =>
      have htail := ih (List.cons_ne_nil next ls)
      rw [List.cons_append] at htail
      rw [List.cons_append, List.cons_append, List.intercalate_cons_cons, htail,
        List.intercalate_cons_cons, ← List.append_assoc]

theorem head?_dropEnd {c : Char} (h : (dropEnd line).head? = some c) : line.head? = some c := by
  cases line with
  | nil => exact h
  | cons d line =>
    rw [dropEnd] at h
    split at h
    · cases h
    · exact h

theorem unbroken_dropEnd (cs : List Char) : ∀ c ∈ dropEnd cs, isLineBreak c = false := by
  induction cs with
  | nil => exact List.forall_mem_nil _
  | cons c cs ih =>
    rw [dropEnd]
    split
    · exact List.forall_mem_nil _
    · next hc => exact List.forall_mem_cons.mpr ⟨Bool.eq_false_iff.mpr hc, ih⟩

theorem unbroken_of_mem_lines {cs : List Char} (h : line ∈ lines cs) :
    ∀ c ∈ line, isLineBreak c = false := by
  obtain ⟨l, -, rfl⟩ := List.mem_map.mp h
  exact unbroken_dropEnd l

section Parts

variable {cs ds : List Char} {xs ys : List (List Char)}

/-- A text made of complete lines: nothing stands behind its last line break. -/
def Complete (cs : List Char) : Prop := ∀ c ∈ cs.getLast?, isLineBreak c = true

/-- The two halves of one line end do not come together where a text goes on with another. -/
def Unjoined (cs ds : List Char) : Prop := cs.getLast? = some '\r' → ds.head? ≠ some '\n'

theorem getLast?_cons_of_some {c d : Char} (h : cs.getLast? = some d) :
    (c :: cs).getLast? = some d := by
  rw [List.getLast?_cons, h]
  rfl

theorem Complete.tail {c : Char} (h : Complete (c :: cs)) : Complete cs :=
  fun d hd => h d (getLast?_cons_of_some hd)

theorem Unjoined.tail {c : Char} (h : Unjoined (c :: cs) ds) : Unjoined cs ds :=
  fun hlast => h (getLast?_cons_of_some hlast)

theorem linesWithEnds_break {c : Char} (hc : isLineBreak c = true) (h : Unjoined [c] rest) :
    linesWithEnds (c :: rest) = [c] :: linesWithEnds rest := by
  rw [linesWithEnds.eq_def]
  split
  next heq => cases heq
  next heq =>
    cases heq
    exact absurd rfl (h rfl)
  next heq =>
    cases heq
    rw [if_pos hc]

theorem linesWithEnds_of_not_break {c : Char} (hc : isLineBreak c = false) :
    linesWithEnds (c :: rest) =
      (c :: (linesWithEnds rest).headD []) :: (linesWithEnds rest).tail := by
  have hr : c ≠ '\r' := by
    rintro rfl
    cases hc
  rw [linesWithEnds.eq_def]
  cases hrest : linesWithEnds rest <;> simp [hr, hc, hrest]

/-- Complete lines and the lines of the text behind them are the lines of the whole. -/
theorem linesWithEnds_append (h : Complete cs) (hjoint : Unjoined cs ds) :
    linesWithEnds (cs ++ ds) = linesWithEnds cs ++ linesWithEnds ds := by
  fun_induction linesWithEnds cs with
  | case1 => rfl
  | case2 rest ih =>
    have hrest := ih h.tail.tail hjoint.tail.tail
    rw [List.cons_append, List.cons_append, linesWithEnds, hrest, List.cons_append]
  | case3 c rest hr hc ih =>
    have hrest := ih h.tail hjoint.tail
    have hbreak : Unjoined [c] (rest ++ ds) := by
      intro hlast hhead
      obtain rfl : c = '\r' := by simpa using hlast
      cases rest with
      | nil => exact hjoint rfl hhead
      | cons d rest =>
        obtain rfl : d = '\n' := by simpa using hhead
        exact hr rest rfl rfl
    rw [List.cons_append, linesWithEnds_break hc hbreak, hrest, List.cons_append]
  | case4 c rest hr hc hn ih =>
    have hrest : rest = [] := by rw [← flatten_linesWithEnds rest, hn, List.flatten_nil]
    subst hrest
    exact absurd (h c rfl) hc
  | case5 c rest hr hc l ls hn ih =>
    have hrest := ih h.tail hjoint.tail
    rw [List.cons_append, linesWithEnds_of_not_break (by simpa using hc), hrest, hn]
    rfl

/-- The first lines of a text are the lines of what they make up. -/
theorem linesWithEnds_flatten (h : linesWithEnds cs = xs ++ ys) :
    linesWithEnds xs.flatten = xs := by
  fun_induction linesWithEnds cs generalizing xs ys with
  | case1 =>
    obtain ⟨rfl, -⟩ := List.nil_eq_append_iff.mp h
    rfl
  | case2 rest ih =>
    obtain ⟨rfl, -⟩ | ⟨xs, rfl, hrest⟩ := List.cons_eq_append_iff.mp h
    · rfl
    have htail := ih hrest
    rw [List.flatten_cons, List.cons_append, List.cons_append, linesWithEnds, List.nil_append,
      htail]
  | case3 c rest hr hc ih =>
    obtain ⟨rfl, -⟩ | ⟨xs, rfl, hrest⟩ := List.cons_eq_append_iff.mp h
    · rfl
    have htail := ih hrest
    have hbreak : Unjoined [c] xs.flatten := by
      intro hlast hhead
      obtain rfl : c = '\r' := by simpa using hlast
      obtain ⟨more, hmore⟩ := List.head?_eq_some_iff.mp hhead
      have hwhole : rest = xs.flatten ++ ys.flatten := by
        rw [← flatten_linesWithEnds rest, hrest, List.flatten_append]
      exact hr _ rfl (by rw [hwhole, hmore]; rfl)
    rw [List.flatten_cons, List.singleton_append, linesWithEnds_break hc hbreak, htail]
  | case4 c rest hr hc hn ih =>
    obtain ⟨rfl, -⟩ | ⟨xs, rfl, hrest⟩ := List.cons_eq_append_iff.mp h
    · rfl
    obtain ⟨rfl, -⟩ := List.nil_eq_append_iff.mp hrest
    exact linesWithEnds_of_not_break (by simpa using hc)
  | case5 c rest hr hc l ls hn ih =>
    obtain ⟨rfl, -⟩ | ⟨xs, rfl, hrest⟩ := List.cons_eq_append_iff.mp h
    · rfl
    have htail : linesWithEnds (l :: xs).flatten = l :: xs :=
      ih (by rw [hn, hrest]; rfl)
    rw [List.flatten_cons] at htail
    rw [List.flatten_cons, List.cons_append, linesWithEnds_of_not_break (by simpa using hc),
      htail]
    rfl

/-- The lines behind the first one are the lines of what they make up. -/
theorem linesWithEnds_flatten_tail (h : linesWithEnds cs = line :: ls) :
    linesWithEnds ls.flatten = ls := by
  fun_induction linesWithEnds cs generalizing line ls with
  | case1 => cases h
  | case2 rest ih =>
    obtain ⟨-, rfl⟩ := List.cons.inj h
    rw [flatten_linesWithEnds]
  | case3 c rest hr hc ih =>
    obtain ⟨-, rfl⟩ := List.cons.inj h
    rw [flatten_linesWithEnds]
  | case4 c rest hr hc hn ih =>
    obtain ⟨-, rfl⟩ := List.cons.inj h
    rfl
  | case5 c rest hr hc l ls' hn ih =>
    obtain ⟨-, rfl⟩ := List.cons.inj h
    exact ih hn

theorem linesWithEnds_flatten_right (h : linesWithEnds cs = xs ++ ys) :
    linesWithEnds ys.flatten = ys := by
  induction xs generalizing cs with
  | nil => rw [List.nil_append] at h; rw [← h, flatten_linesWithEnds]
  | cons x xs ih => exact ih (linesWithEnds_flatten_tail h)

end Parts

end Typeset.Text
