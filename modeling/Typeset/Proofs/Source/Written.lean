import Typeset.Source.Definitions

/-! Definitions written down one below the other, and how each line of them is read. -/

namespace Typeset.Source

variable {d : LinkDefinition} {cs rest : List Char} {after : List Line}

/-- Text that stays on one line. -/
def Unbroken (cs : List Char) : Prop := ∀ c ∈ cs, Text.isLineBreak c = false

instance : DecidablePred Unbroken := fun cs => List.decidableBAll _ cs

/-- A link definition that fits its written form. -/
structure LinkDefinition.Writable (d : LinkDefinition) : Prop where
  label_ne_nil : d.label.toList ≠ []
  label_trimmed : Text.trim Text.isBlank d.label.toList = d.label.toList
  label_unclosed : ']' ∉ d.label.toList
  label_not_note : d.label.toList.head? ≠ some '^'
  label_unbroken : Unbroken d.label.toList
  url_unclosed : '>' ∉ d.url.toList
  url_unbroken : Unbroken d.url.toList
  title_unclosed : ∀ t ∈ d.title, '"' ∉ t.toList
  title_unbroken : ∀ t ∈ d.title, Unbroken t.toList

/-- What stands after the target: a title between quotation marks, or nothing. -/
def titlePart : Option String → Line
  | some t => ' ' :: '"' :: (t.toList ++ ['"'])
  | none => []

/-- `[label]: <url> "title"` -/
def LinkDefinition.line (d : LinkDefinition) : Line :=
  '[' :: (d.label.toList ++ ']' :: ':' :: ' ' :: '<' :: (d.url.toList ++ '>' :: titlePart d.title))

/-- A definition of a link, or of a footnote by its identifier and the lines of its body. -/
inductive Written
  | link (d : LinkDefinition)
  | note (identifier first : Line) (more : List Line)

namespace Written

/-- The lines of a definition; those of a footnote's body after the first are indented. -/
def lines : Written → List Line
  | .link d => [d.line]
  | .note identifier first more =>
    ('[' :: '^' :: (identifier ++ ']' :: ':' :: ' ' :: first)) ::
      more.map ([' ', ' ', ' ', ' '] ++ ·)

/-- A definition that fits its written form. -/
def Fits : Written → Prop
  | .link d => d.Writable
  | .note identifier first more =>
    identifier ≠ [] ∧ (∀ c ∈ identifier, c ≠ ']' ∧ Text.isBlank c = false) ∧ Unbroken first ∧
      ∀ line ∈ more, Unbroken line

def link? : Written → Option LinkDefinition
  | .link d => some d
  | .note .. => none

/-- The token of a link definition. -/
def token? : Written → Option Value
  | .link d =>
    some (.object [("type", .str "definition"), ("attrs", .object
      [("identifier", .str d.label), ("label", .str d.label), ("url", .str d.url),
        ("title", .ofText? d.title)])])
  | .note .. => none

/-- A footnote's identifier, and its body as one text. -/
def note? : Written → Option NoteDefinition
  | .link _ => none
  | .note identifier first more =>
    some ⟨String.ofList identifier, String.ofList (['\n'].intercalate (first :: more))⟩

end Written

/-- A document of definitions only. -/
def written (defs : List Written) : List Char := ['\n'].intercalate (defs.flatMap Written.lines)

section Reading

theorem takeWhile_append_stop {p : Char → Bool} {stop : Char} (h : ∀ c ∈ cs, p c = true)
    (hstop : p stop = false) : (cs ++ stop :: rest).takeWhile p = cs := by
  rw [List.takeWhile_append_of_pos h, List.takeWhile_cons_of_neg (by simp [hstop]),
    List.append_nil]

theorem ne_stop {stop : Char} (h : stop ∉ cs) : ∀ c ∈ cs, (c != stop) = true := by
  intro c hc
  have hne : c ≠ stop := fun he => h (he ▸ hc)
  simpa using hne

theorem takeWhile_until {stop : Char} (h : stop ∉ cs) :
    (cs ++ stop :: rest).takeWhile (· != stop) = cs :=
  takeWhile_append_stop (ne_stop h) (bne_self_eq_false stop)

theorem dropWhile_until {stop : Char} (h : stop ∉ cs) :
    (cs ++ stop :: rest).dropWhile (· != stop) = stop :: rest := by
  rw [List.dropWhile_append_of_pos (ne_stop h), List.dropWhile_cons_of_neg (by simp)]

theorem targetEnd?_titlePart (title : Option String) (h : ∀ t ∈ title, '"' ∉ t.toList) :
    targetEnd? (titlePart title) = some title := by
  cases title with
  | none => rfl
  | some t =>
    have hclose : title?.close '"' (t.toList ++ ['"']) = some (t.toList, []) := by
      rw [title?.close, dropWhile_until (h t rfl), takeWhile_until (h t rfl)]
    simp [targetEnd?, titlePart, isSpaceOrTab, title?, hclose]

theorem target?_bracketed (url : List Char) (title : Option String) (hurl : '>' ∉ url)
    (htitle : ∀ t ∈ title, '"' ∉ t.toList) :
    target? ('<' :: (url ++ '>' :: titlePart title)) = some (url, title) := by
  simp only [target?, dropWhile_until hurl, takeWhile_until hurl,
    targetEnd?_titlePart title htitle, Option.map_some]

theorem link?_line (h : d.Writable) : link? d.line = some d := by
  obtain ⟨c, label, hl⟩ := List.exists_cons_of_ne_nil h.label_ne_nil
  have hclosed := h.label_unclosed
  have hnote := h.label_not_note
  have htrim := h.label_trimmed
  rw [hl] at hclosed hnote htrim
  have hc : ¬((decide (c = ']') || decide (c = '^')) = true) := by
    simp only [Bool.or_eq_true, decide_eq_true_eq]
    rintro (rfl | rfl)
    · exact hclosed List.mem_cons_self
    · exact hnote rfl
  have hopen : ']' ∉ label := fun hm => hclosed (List.mem_cons_of_mem c hm)
  have htarget := target?_bracketed d.url.toList d.title h.url_unclosed h.title_unclosed
  have hlabel : String.ofList (c :: label) = d.label := by rw [← hl, String.ofList_toList]
  simp only [LinkDefinition.line, hl, List.cons_append, link?, if_neg hc,
    takeWhile_until hopen]
  simp [isSpaceOrTab, htarget, htrim, hlabel]

theorem noteStart?_line (h : d.Writable) : noteStart? d.line = none := by
  obtain ⟨c, label, hl⟩ := List.exists_cons_of_ne_nil h.label_ne_nil
  have hnote := h.label_not_note
  rw [hl] at hnote
  have hc : c ≠ '^' := by simpa using hnote
  simp [LinkDefinition.line, hl, noteStart?, hc]

theorem noteStart?_head (identifier first : Line) (hne : identifier ≠ [])
    (h : ∀ c ∈ identifier, c ≠ ']' ∧ Text.isBlank c = false) :
    noteStart? ('[' :: '^' :: (identifier ++ ']' :: ':' :: ' ' :: first)) =
      some (identifier, first) := by
  have hstop : ∀ c ∈ identifier, (c != ']' && !Text.isBlank c) = true := by
    intro c hc
    simp [(h c hc).1, (h c hc).2]
  have hword : (identifier ++ ']' :: ':' :: ' ' :: first).takeWhile
      (fun c => c != ']' && !Text.isBlank c) = identifier := takeWhile_append_stop hstop rfl
  simp [noteStart?, hword, hne, isSpaceOrTab]

/-- A definition's first line starts with a bracket, so that it opens no fence, is not blank and
does not go on with a footnote. -/
theorem Written.lines_eq_cons (w : Written) :
    ∃ line more, w.lines = ('[' :: line) :: more := by
  cases w with
  | link d => exact ⟨_, _, rfl⟩
  | note identifier first more => exact ⟨_, _, rfl⟩

theorem fence?_bracket : fence? ('[' :: cs) = none := rfl

theorem continuation_bracket :
    continuation (('[' :: cs) :: after) = ([], ('[' :: cs) :: after) := by
  rw [continuation.eq_def]
  simp [outdent?, Text.isBlank]

/-- A footnote's body ends where the next definition begins, or with the document. -/
theorem continuation_indented (body : List Line) (h : continuation after = ([], after)) :
    continuation (body.map ([' ', ' ', ' ', ' '] ++ ·) ++ after) = (body, after) := by
  induction body with
  | nil => exact h
  | cons line body ih =>
    rw [List.map_cons, List.cons_append, continuation.eq_def]
    simp [outdent?] at ih ⊢
    simp [ih]

theorem continuation_written (defs : List Written) :
    continuation (defs.flatMap Written.lines) = ([], defs.flatMap Written.lines) := by
  cases defs with
  | nil => rfl
  | cons w defs =>
    obtain ⟨line, more, hw⟩ := w.lines_eq_cons
    rw [List.flatMap_cons, hw]
    exact continuation_bracket

end Reading

end Typeset.Source
