import Typeset.Proofs.Source.Account
import Typeset.Token.Normal

/-! A document out of which nothing is taken. Its lines stay as they are, but each line end comes
out as a line feed. Vertical tabs, form feeds, separators of files, groups and records, and the line
and paragraph separators count as line ends here, so that they are lost, in code as elsewhere. -/

namespace Typeset

namespace Text

open Token (dropLastNewline)

variable {c : Char} {cs : List Char} {ends : Char → Bool}

/-- A text with a line feed for each character of one class, and one for a carriage return with the
line feed behind it. -/
def withNewlines (ends : Char → Bool) : List Char → List Char
  | [] => []
  | '\r' :: '\n' :: rest => '\n' :: withNewlines ends rest
  | c :: rest => (if ends c then '\n' else c) :: withNewlines ends rest

/-- The line end that stands for itself or belongs to the line feed behind it. -/
def isReturn (c : Char) : Bool := c == '\r'

example : withNewlines isReturn ['a', '\r', '\n', '\r', '\n', '\r', 'b'] =
    ['a', '\n', '\n', '\n', 'b'] := by decide

theorem withNewlines_ne_nil (h : cs ≠ []) : withNewlines ends cs ≠ [] := by
  unfold withNewlines
  split
  · exact absurd rfl h
  · exact List.cons_ne_nil _ _
  · exact List.cons_ne_nil _ _

theorem dropLastNewline_cons (c : Char) (h : cs ≠ []) :
    dropLastNewline (c :: cs) = c :: dropLastNewline cs := by
  obtain ⟨front, last, rfl⟩ := List.eq_nil_or_concat cs |>.resolve_left h
  by_cases hlast : last = '\n'
  · subst hlast
    simp [dropLastNewline]
  · simp [dropLastNewline, hlast]

theorem withNewlines_cons {rest : List Char} (h : ∀ more, c = '\r' → rest = '\n' :: more → False) :
    withNewlines ends (c :: rest) = (if ends c then '\n' else c) :: withNewlines ends rest :=
  withNewlines.eq_3 ends c rest h

/-- An empty line above others shows as a line feed, but for the last line end. -/
theorem intercalate_emptyLine {rest : List Char}
    (h : ['\n'].intercalate (lines rest) = dropLastNewline (withNewlines isLineBreak rest)) :
    ['\n'].intercalate ([] :: lines rest) =
      dropLastNewline ('\n' :: withNewlines isLineBreak rest) := by
  by_cases hrest : rest = []
  · subst hrest
    rfl
  · obtain ⟨next, more, hlines⟩ := List.exists_cons_of_ne_nil (Source.lines_ne_nil hrest)
    rw [dropLastNewline_cons '\n' (withNewlines_ne_nil hrest), ← h, hlines,
      List.intercalate_cons_cons]
    rfl

theorem intercalate_cons_head (c : Char) (line : List Char) (ls : List (List Char)) :
    ['\n'].intercalate ((c :: line) :: ls) = c :: ['\n'].intercalate (line :: ls) := by
  cases ls with
  | nil => rfl
  | cons next ls => rw [List.intercalate_cons_cons, List.intercalate_cons_cons]; rfl

/-- Lines set one below the other show the text, but for how its lines end. -/
theorem intercalate_lines (cs : List Char) :
    ['\n'].intercalate (lines cs) = dropLastNewline (withNewlines isLineBreak cs) := by
  fun_induction linesWithEnds cs with
  | case1 => rfl
  | case2 rest ih => exact intercalate_emptyLine ih
  | case3 c rest hreturn hc ih =>
    have hlines : lines (c :: rest) = [] :: lines rest := by
      rw [lines, linesWithEnds.eq_3 c rest hreturn, if_pos hc, List.map_cons, dropEnd, if_pos hc,
        lines]
    rw [hlines, withNewlines_cons hreturn, if_pos hc]
    exact intercalate_emptyLine ih
  | case4 c rest hreturn hc hn ih =>
    have hrest : rest = [] := by
      have hflat := flatten_linesWithEnds rest
      rw [hn] at hflat
      exact hflat.symm
    subst hrest
    have hc' : isLineBreak c = false := Bool.eq_false_iff.mpr hc
    have hkeep : dropLastNewline [c] = [c] := by
      have hne : c ≠ '\n' := by
        rintro rfl
        cases hc'
      simp [dropLastNewline, hne]
    rw [withNewlines_cons hreturn, if_neg hc, withNewlines, hkeep, lines,
      linesWithEnds_unbroken (List.cons_ne_nil c []) (List.forall_mem_singleton.mpr hc')]
    simp [dropEnd, hc']
  | case5 c rest hreturn hc l ls hn ih =>
    have hrest : rest ≠ [] := by
      rintro rfl
      cases hn
    have hlines : lines rest = dropEnd l :: ls.map dropEnd := by rw [lines, hn, List.map_cons]
    have hmore : lines (c :: rest) = (c :: dropEnd l) :: ls.map dropEnd := by
      rw [lines, linesWithEnds.eq_3 c rest hreturn, if_neg hc, hn]
      simp [dropEnd, hc]
    rw [withNewlines_cons hreturn, if_neg hc, dropLastNewline_cons c (withNewlines_ne_nil hrest),
      ← ih, hlines, hmore, intercalate_cons_head]

theorem mem_dropLastNewline (hc : c ∈ cs) (h : c ≠ '\n') : c ∈ dropLastNewline cs := by
  rcases List.eq_nil_or_concat cs with rfl | ⟨front, last, rfl⟩
  · cases hc
  · by_cases hlast : last = '\n'
    · subst hlast
      have hfront : c ∈ front := by simpa [h] using hc
      simpa [dropLastNewline] using hfront
    · simpa [dropLastNewline, hlast] using hc

theorem mem_of_mem_dropLastNewline (h : c ∈ dropLastNewline cs) : c ∈ cs := by
  unfold dropLastNewline at h
  split at h
  next rest hrest =>
    rw [← List.mem_reverse, hrest]
    exact List.mem_cons_of_mem _ (List.mem_reverse.mp h)
  · exact h

/-- Every other character is still there. -/
theorem mem_withNewlines (hc : c ∈ cs) (hr : c ≠ '\r') (hends : ends c = false) :
    c ∈ withNewlines ends cs := by
  fun_induction withNewlines ends cs with
  | case1 => cases hc
  | case2 rest ih =>
    rcases List.mem_cons.mp hc with rfl | hc
    · exact absurd rfl hr
    · rcases List.mem_cons.mp hc with rfl | hc
      · exact List.mem_cons_self
      · exact List.mem_cons_of_mem _ (ih hc)
  | case3 d rest hreturn ih =>
    rcases List.mem_cons.mp hc with rfl | hc
    · rw [hends]
      exact List.mem_cons_self
    · exact List.mem_cons_of_mem _ (ih hc)

/-- None of the class is. -/
theorem ends_of_mem_withNewlines (h : c ∈ withNewlines ends cs) : c = '\n' ∨ ends c = false := by
  fun_induction withNewlines ends cs with
  | case1 => cases h
  | case2 rest ih =>
    rcases List.mem_cons.mp h with rfl | h
    · exact .inl rfl
    · exact ih h
  | case3 d rest hreturn ih =>
    rcases List.mem_cons.mp h with rfl | h
    · cases hd : ends d with
      | true => exact .inl (if_pos rfl)
      | false => exact .inr (by simpa using hd)
    · exact ih h

/-- The two ways to write line ends differ on no text whose lines end in the usual way. -/
theorem withNewlines_of_plain (h : ∀ c ∈ cs, isLineBreak c = true → c = '\n' ∨ c = '\r') :
    withNewlines isLineBreak cs = withNewlines isReturn cs := by
  fun_induction withNewlines isLineBreak cs with
  | case1 => rfl
  | case2 rest ih =>
    rw [withNewlines, ih fun c hc => h c (List.mem_cons_of_mem _ (List.mem_cons_of_mem _ hc))]
  | case3 c rest hreturn ih =>
    rw [withNewlines_cons hreturn, ih fun c hc => h c (List.mem_cons_of_mem _ hc)]
    congr 1
    cases hc : isLineBreak c with
    | true =>
      rcases h c List.mem_cons_self hc with rfl | rfl
      · rfl
      · rfl
    | false =>
      have hr : isReturn c = false := by
        rw [isReturn, beq_eq_false_iff_ne]
        rintro rfl
        cases hc
      rw [hr]

/-- The lines of a text show nothing but line feeds of what it had besides the usual line ends. -/
theorem intercalate_lines_eq_iff :
    ['\n'].intercalate (lines cs) = dropLastNewline (withNewlines isReturn cs) ↔
      ∀ c ∈ cs, isLineBreak c = true → c = '\n' ∨ c = '\r' := by
  constructor
  · intro h c hc hbreak
    by_contra hother
    obtain ⟨hn, hr⟩ := not_or.mp hother
    have hkept : c ∈ ['\n'].intercalate (lines cs) := by
      rw [h]
      exact mem_dropLastNewline (mem_withNewlines hc hr (beq_eq_false_iff_ne.mpr hr)) hn
    rw [intercalate_lines] at hkept
    rcases ends_of_mem_withNewlines (mem_of_mem_dropLastNewline hkept) with rfl | hends
    · exact hn rfl
    · rw [hbreak] at hends
      cases hends
  · intro h
    rw [intercalate_lines, withNewlines_of_plain h]

end Text

namespace Source

open Token (dropLastNewline)

variable {fence : Option Line} {afterBlank : Bool} {ls : List Line}

/-- Where nothing is taken out, every line stays. -/
theorem kept_of_nothing_taken (hlinks : (liftFrom fence afterBlank ls).links = [])
    (hnotes : (liftFrom fence afterBlank ls).notes = []) :
    (liftFrom fence afterBlank ls).kept = ls := by
  obtain ⟨parts, -, hsource, hlift⟩ := exists_parts fence afterBlank ls
  rw [hlift] at hlinks hnotes ⊢
  have hlink := List.filterMap_eq_nil_iff.mp hlinks
  have hnote := List.filterMap_eq_nil_iff.mp hnotes
  have hpart : ∀ part ∈ parts, part.source = [part.left] := by
    intro part hpart
    cases part with
    | kept line => rfl
    | link line d => cases hlink _ hpart
    | note line identifier text below body => cases hnote _ hpart
  rw [hsource, gathered, List.map_eq_flatMap]
  exact (List.flatMap_congr hpart).symm

/-- A document out of which nothing is taken is left as it is, but that every line end is written as
a line feed and the last one is dropped. Up to the usual line ends it is left as it is exactly if it
has no others. -/
theorem lift_untouched_iff (cs : List Char) (hlinks : (liftDefinitions cs).links = [])
    (hnotes : (liftDefinitions cs).notes = []) :
    (liftDefinitions cs).text = dropLastNewline (Text.withNewlines Text.isLineBreak cs) ∧
      ((liftDefinitions cs).text = dropLastNewline (Text.withNewlines Text.isReturn cs) ↔
        ∀ c ∈ cs, Text.isLineBreak c = true → c = '\n' ∨ c = '\r') := by
  have htext : (liftDefinitions cs).text = ['\n'].intercalate (Text.lines cs) := by
    rw [Lifted.text]
    exact congrArg _ (kept_of_nothing_taken hlinks hnotes)
  rw [htext]
  exact ⟨Text.intercalate_lines cs, Text.intercalate_lines_eq_iff⟩

/-- Lines that end in each of the usual ways, two of them in a fence. -/
def mixedReturns : List Char := "a\r\n~~~\r[b]: c\n~~~\r\n".toList

theorem lift_untouched_iff_mixedReturns :
    (liftDefinitions mixedReturns).links = [] ∧ (liftDefinitions mixedReturns).notes = [] ∧
      (liftDefinitions mixedReturns).text =
        dropLastNewline (Text.withNewlines Text.isLineBreak mixedReturns) ∧
      ((liftDefinitions mixedReturns).text =
        dropLastNewline (Text.withNewlines Text.isReturn mixedReturns) ↔
          ∀ c ∈ mixedReturns, Text.isLineBreak c = true → c = '\n' ∨ c = '\r') := by
  have hlinks : (liftDefinitions mixedReturns).links = [] := by cbv
  have hnotes : (liftDefinitions mixedReturns).notes = [] := by cbv
  exact ⟨hlinks, hnotes, lift_untouched_iff mixedReturns hlinks hnotes⟩

/-- A line of code with a form feed in it. -/
def formFeedCode : List Char := "```\na\x0cb\n```\n".toList

/-- The form feed in the code comes out as a line end. -/
theorem formFeed_breaks_code :
    (liftDefinitions formFeedCode).links = [] ∧ (liftDefinitions formFeedCode).notes = [] ∧
      (liftDefinitions formFeedCode).text = "```\na\nb\n```".toList ∧
      (liftDefinitions formFeedCode).text ≠
        dropLastNewline (Text.withNewlines Text.isReturn formFeedCode) := by
  have htext : (liftDefinitions formFeedCode).text = "```\na\nb\n```".toList := by cbv
  refine ⟨by cbv, by cbv, htext, ?_⟩
  rw [htext]
  decide

end Source

end Typeset
