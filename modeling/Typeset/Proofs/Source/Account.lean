import Mathlib
import Typeset.Proofs.Lists
import Typeset.Proofs.Source.Remainder

/-! An account of the lines of a document. Each stays as it is, or leaves an empty line in the place
of a definition, or goes on with the footnote above it: none is passed over, read twice or moved. -/

namespace Typeset.Source

variable {line identifier text body : Line} {fence : Option Line} {afterBlank : Bool}
  {ls below : List Line}

/-- The first line of a footnote: `[^identifier]:`, and the text behind it. -/
structure NoteLine (identifier text line : Line) : Prop where
  line_eq : line = '[' :: '^' :: (identifier ++ ']' :: ':' :: text)
  ne_nil : identifier ≠ []
  solid : ∀ c ∈ identifier, c ≠ ']' ∧ Text.isBlank c = false

/-- A text without the space or tab that it begins with, if it does. -/
def unspaced : Line → Line
  | [] => []
  | c :: rest => if isSpaceOrTab c then rest else c :: rest

/-- A line below a footnote's first, and what it adds to the body: a blank one nothing, another one
what stands behind one unit of indentation. -/
def GoesOn (line body : Line) : Prop :=
  (line.all Text.isBlank = true ∧ body = []) ∨ line = [' ', ' ', ' ', ' '] ++ body ∨
    line = '\t' :: body

section Lines

theorem noteStart?_eq_some_iff {first : Line} :
    noteStart? line = some (identifier, first) ↔
      ∃ text, NoteLine identifier text line ∧ first = unspaced text := by
  constructor
  · intro h
    unfold noteStart? at h
    split at h
    next rest =>
      have hword := List.takeWhile_append_dropWhile
        (p := fun c => c != ']' && !Text.isBlank c) (l := rest)
      have hsolid : ∀ c ∈ rest.takeWhile fun c => c != ']' && !Text.isBlank c,
          c ≠ ']' ∧ Text.isBlank c = false := by
        intro c hc
        simpa using List.mem_takeWhile_imp hc
      generalize rest.takeWhile (fun c => c != ']' && !Text.isBlank c) = word at h hword hsolid
      generalize rest.dropWhile (fun c => c != ']' && !Text.isBlank c) = behind at hword
      subst hword
      dsimp only at h
      rw [List.drop_left] at h
      split at h
      next text =>
        split at h
        · cases h
        next hne =>
          rw [List.isEmpty_iff] at hne
          cases text with
          | nil =>
            obtain ⟨rfl, rfl⟩ := Prod.mk.inj (Option.some.inj h)
            exact ⟨[], ⟨rfl, hne, hsolid⟩, rfl⟩
          | cons c more =>
            obtain ⟨rfl, rfl⟩ := Prod.mk.inj (Option.some.inj h)
            exact ⟨c :: more, ⟨rfl, hne, hsolid⟩, rfl⟩
      · cases h
    · cases h
  · rintro ⟨text, ⟨rfl, hne, hsolid⟩, rfl⟩
    have hword : (identifier ++ ']' :: ':' :: text).takeWhile
        (fun c => c != ']' && !Text.isBlank c) = identifier :=
      takeWhile_append_stop (fun c hc => by simp [hsolid c hc]) rfl
    simp only [noteStart?, hword, List.drop_left, List.isEmpty_iff, if_neg hne]
    cases text <;> rfl

theorem goesOn_of_outdent? (h : outdent? line = some body) : GoesOn line body := by
  unfold outdent? at h
  split at h <;> cases h
  · exact .inr (.inl rfl)
  · exact .inr (.inr rfl)

/-- The lines that go on with a footnote are the next ones, each with its part of the body. -/
theorem exists_of_continuation (ls : List Line) :
    ∃ below, ls = below ++ (continuation ls).2 ∧
      List.Forall₂ GoesOn below (continuation ls).1 := by
  fun_induction continuation ls with
  | case1 => exact ⟨[], rfl, .nil⟩
  | case2 line rest text h body after hc ih =>
    obtain ⟨below, hrest, hbelow⟩ := ih
    rw [hc] at hrest hbelow
    exact ⟨line :: below, congrArg (line :: ·) hrest, .cons (goesOn_of_outdent? h) hbelow⟩
  | case3 line rest h hblank body after hc ih =>
    obtain ⟨below, hrest, hbelow⟩ := ih
    rw [hc] at hrest hbelow
    have hline : GoesOn line [] := .inl ⟨(Bool.and_eq_true_iff.mp hblank).1, rfl⟩
    exact ⟨line :: below, congrArg (line :: ·) hrest, .cons hline hbelow⟩
  | case4 => exact ⟨[], rfl, .nil⟩

end Lines

/-- What becomes of lines that follow one another: one that stays, one with a link definition, or
those of a footnote, the lines below its first and their parts of the body side by side. -/
inductive Part
  | kept (line : Line)
  | link (line : Line) (d : LinkDefinition)
  | note (line identifier text : Line) (below body : List Line)

namespace Part

/-- The lines of the document. -/
def source : Part → List Line
  | kept line => [line]
  | link line _ => [line]
  | note line _ _ below _ => line :: below

/-- The line that is left of them. -/
def left : Part → Line
  | kept line => line
  | link .. => []
  | note .. => []

def link? : Part → Option LinkDefinition
  | link _ d => some d
  | _ => none

/-- The footnote: the text of its first line, and the body below it. -/
def note? : Part → Option NoteDefinition
  | note _ identifier text _ body =>
    some ⟨String.ofList identifier, String.ofList (['\n'].intercalate (unspaced text :: body))⟩
  | _ => none

/-- What is taken out stands on the lines. -/
def Sound : Part → Prop
  | kept _ => True
  | link line d => Source.link? line = some d
  | note line identifier text below body =>
    NoteLine identifier text line ∧ List.Forall₂ GoesOn below body

end Part

/-- Lines, part by part. -/
def gathered (parts : List Part) : Lifted :=
  { kept := parts.map Part.left
    links := parts.filterMap Part.link?
    notes := parts.filterMap Part.note? }

/-- Every line belongs to one part. -/
theorem exists_parts (fence : Option Line) (afterBlank : Bool) (ls : List Line) :
    ∃ parts : List Part, (∀ part ∈ parts, part.Sound) ∧ ls = parts.flatMap Part.source ∧
      liftFrom fence afterBlank ls = gathered parts := by
  induction fence, afterBlank, ls using liftFrom.induct with
  | case1 fence afterBlank => exact ⟨[], List.forall_mem_nil _, rfl, liftFrom_nil⟩
  | case2 afterBlank line rest f ih =>
    simp only [dite_eq_ite] at ih
    obtain ⟨parts, hsound, hsource, hlift⟩ := ih
    refine ⟨.kept line :: parts, List.forall_mem_cons.mpr ⟨trivial, hsound⟩, ?_, ?_⟩
    · exact congrArg (line :: ·) hsource
    · rw [liftFrom_inside, hlift]
      rfl
  | case3 afterBlank line rest f hf ih =>
    obtain ⟨parts, hsound, hsource, hlift⟩ := ih
    refine ⟨.kept line :: parts, List.forall_mem_cons.mpr ⟨trivial, hsound⟩, ?_, ?_⟩
    · exact congrArg (line :: ·) hsource
    · rw [liftFrom_of_fence hf, hlift]
      rfl
  | case4 afterBlank line rest hf identifier first hn ih =>
    obtain ⟨parts, hsound, hsource, hlift⟩ := ih
    obtain ⟨text, hline, rfl⟩ := noteStart?_eq_some_iff.mp hn
    obtain ⟨below, hrest, hbelow⟩ := exists_of_continuation rest
    refine ⟨.note line identifier text below (continuation rest).1 :: parts,
      List.forall_mem_cons.mpr ⟨⟨hline, hbelow⟩, hsound⟩, ?_, ?_⟩
    · rw [List.flatMap_cons, ← hsource]
      exact congrArg (line :: ·) hrest
    · rw [liftFrom_of_note hf hn, hlift]
      rfl
  | case5 afterBlank line rest hf hn link hl ih =>
    obtain ⟨parts, hsound, hsource, hlift⟩ := ih
    have hline : link? line = some link := by
      rw [dite_eq_ite, afterBlank_of_link hl, if_pos rfl] at hl
      exact hl
    refine ⟨.link line link :: parts, List.forall_mem_cons.mpr ⟨hline, hsound⟩, ?_, ?_⟩
    · exact congrArg (line :: ·) hsource
    · rw [liftFrom_of_link hf hn hl, hlift]
      rfl
  | case6 afterBlank line rest hf hn hl ih =>
    obtain ⟨parts, hsound, hsource, hlift⟩ := ih
    refine ⟨.kept line :: parts, List.forall_mem_cons.mpr ⟨trivial, hsound⟩, ?_, ?_⟩
    · exact congrArg (line :: ·) hsource
    · rw [liftFrom_of_plain hf hn hl, hlift]
      rfl

section Count

/-- Lines set one below the other have a line feed between each two. -/
theorem count_joined (hne : ls ≠ []) (h : ∀ line ∈ ls, '\n' ∉ line) :
    ls.length = 1 + (['\n'].intercalate ls).count '\n' := by
  induction ls with
  | nil => exact absurd rfl hne
  | cons line ls ih =>
    obtain ⟨hline, hmore⟩ := List.forall_mem_cons.mp h
    have hnone : line.count '\n' = 0 := List.count_eq_zero.mpr hline
    cases ls with
    | nil => simp [hnone]
    | cons next ls =>
      have htail := ih (List.cons_ne_nil next ls) hmore
      rw [List.intercalate_cons_cons, List.count_append, List.count_append, hnone,
        List.length_cons, htail, List.count_singleton_self]
      omega

theorem Unbroken.newline_notMem (h : Unbroken line) : '\n' ∉ line := by
  intro hmem
  exact absurd (h '\n' hmem) (by decide)

theorem GoesOn.newline_notMem (h : GoesOn line body) (hline : '\n' ∉ line) : '\n' ∉ body := by
  rcases h with ⟨-, rfl⟩ | rfl | rfl
  · exact List.not_mem_nil
  · exact fun hmem => hline (List.mem_append_right _ hmem)
  · exact fun hmem => hline (List.mem_cons_of_mem _ hmem)

theorem newline_notMem_unspaced (h : '\n' ∉ text) : '\n' ∉ unspaced text := by
  cases text with
  | nil => exact h
  | cons c rest =>
    rw [unspaced]
    split
    · exact List.not_mem_of_not_mem_cons h
    · exact h

variable {part : Part} {parts : List Part}

/-- A footnote has a line feed in its body for each line below its first. -/
theorem Part.Sound.length_source (h : part.Sound) (hlines : ∀ line ∈ part.source, '\n' ∉ line) :
    part.source.length =
      1 + ((part.note?.toList).map fun note => note.body.toList.count '\n').sum := by
  cases part with
  | kept line => rfl
  | link line d => rfl
  | note line identifier text below body =>
    obtain ⟨⟨rfl, -, -⟩, hbelow⟩ := h
    obtain ⟨hline, hmore⟩ := List.forall_mem_cons.mp hlines
    have htext : '\n' ∉ text := fun hmem => hline (by simp [hmem])
    have hbody : ∀ part ∈ body, '\n' ∉ part := by
      intro part hpart
      obtain ⟨line, hline, hgoes⟩ := exists_of_mem_right hbelow hpart
      exact hgoes.newline_notMem (hmore line hline)
    have hcount := count_joined (List.cons_ne_nil (unspaced text) body)
      (List.forall_mem_cons.mpr ⟨newline_notMem_unspaced htext, hbody⟩)
    simp only [Part.source, Part.note?, Option.toList_some, List.map_cons, List.map_nil,
      List.sum_singleton, String.toList_ofList, List.length_cons] at hcount ⊢
    rw [← hcount, hbelow.length_eq, Nat.add_comm]

theorem length_sources (h : ∀ part ∈ parts, part.Sound)
    (hlines : ∀ line ∈ parts.flatMap Part.source, '\n' ∉ line) :
    (parts.flatMap Part.source).length =
      parts.length +
        ((parts.filterMap Part.note?).map fun note => note.body.toList.count '\n').sum := by
  induction parts with
  | nil => rfl
  | cons part parts ih =>
    obtain ⟨hpart, hparts⟩ := List.forall_mem_cons.mp h
    rw [List.flatMap_cons, List.forall_mem_append] at hlines
    have hhere := hpart.length_source hlines.1
    have hrest := ih hparts hlines.2
    rw [List.flatMap_cons, List.length_append, hhere, hrest, List.length_cons]
    cases hnote : part.note? with
    | none =>
      rw [List.filterMap_cons_none hnote, Option.toList_none, List.map_nil, List.sum_nil]
      omega
    | some note =>
      rw [List.filterMap_cons_some hnote, Option.toList_some, List.map_singleton,
        List.sum_singleton, List.map_cons, List.sum_cons]
      omega

end Count

theorem Part.left_cases (part : Part) : part.left = [] ∨ part.left ∈ part.source := by
  cases part with
  | kept line => exact .inr List.mem_cons_self
  | link line d => exact .inl rfl
  | note line identifier text below body => exact .inl rfl

theorem lines_ne_nil {cs : List Char} (h : cs ≠ []) : Text.lines cs ≠ [] := by
  intro hnil
  have hends : Text.linesWithEnds cs = [] := List.map_eq_nil_iff.mp hnil
  have hflat := Text.flatten_linesWithEnds cs
  rw [hends] at hflat
  exact h hflat.symm

/-- The lines of a document are those of its parts, in order, and what is left of it is one line
for each part: the line itself, or an empty one where a definition was. A footnote's body is the
text of its first line and what each of the lines below adds to it. -/
theorem lift_accounts (cs : List Char) (hne : cs ≠ []) :
    ∃ parts : List Part, (∀ part ∈ parts, part.Sound) ∧
      Text.lines cs = parts.flatMap Part.source ∧
      (liftDefinitions cs).text.splitOn '\n' = parts.map Part.left ∧
      (liftDefinitions cs).links = parts.filterMap Part.link? ∧
      (liftDefinitions cs).notes = parts.filterMap Part.note? ∧
      (Text.lines cs).length = 1 + (liftDefinitions cs).text.count '\n' +
        ((liftDefinitions cs).notes.map fun note => note.body.toList.count '\n').sum := by
  obtain ⟨parts, hsound, hsource, hlift⟩ := exists_parts none true (Text.lines cs)
  have hlines : ∀ line ∈ parts.flatMap Part.source, '\n' ∉ line := by
    intro line hline
    rw [← hsource] at hline
    exact Unbroken.newline_notMem (Text.unbroken_of_mem_lines hline)
  have hleft : ∀ line ∈ parts.map Part.left, '\n' ∉ line := by
    intro line hline
    obtain ⟨part, hpart, rfl⟩ := List.mem_map.mp hline
    rcases part.left_cases with hnil | hmem
    · rw [hnil]
      exact List.not_mem_nil
    · exact hlines _ (List.mem_flatMap.mpr ⟨part, hpart, hmem⟩)
  have hparts : parts.map Part.left ≠ [] := by
    intro hnil
    rw [List.map_eq_nil_iff.mp hnil] at hsource
    exact lines_ne_nil hne hsource
  have hcount := count_joined hparts hleft
  rw [liftDefinitions, hlift]
  refine ⟨parts, hsound, hsource, ?_, rfl, rfl, ?_⟩
  · exact List.splitOn_intercalate '\n' hleft hparts
  · rw [hsource, length_sources hsound hlines, ← List.length_map Part.left, hcount]
    rfl

/-- A fence, a link definition, a footnote with a blank line and a tab in its body, and a line of
blanks behind it that does not belong to it. -/
def interwoven : List Char :=
  "~~~\n[a]: b\n~~~\n\n[a]: /u\n[^n]: x\n \n\ty\n  \n\nz".toList

theorem lift_accounts_interwoven :
    interwoven ≠ [] ∧
      (liftDefinitions interwoven).text = "~~~\n[a]: b\n~~~\n\n\n\n  \n\nz".toList ∧
      (liftDefinitions interwoven).notes = [⟨"n", "x\n\ny"⟩] ∧
    ∃ parts : List Part, (∀ part ∈ parts, part.Sound) ∧
      Text.lines interwoven = parts.flatMap Part.source ∧
      (liftDefinitions interwoven).text.splitOn '\n' = parts.map Part.left ∧
      (liftDefinitions interwoven).links = parts.filterMap Part.link? ∧
      (liftDefinitions interwoven).notes = parts.filterMap Part.note? ∧
      (Text.lines interwoven).length = 1 + (liftDefinitions interwoven).text.count '\n' +
        ((liftDefinitions interwoven).notes.map fun note => note.body.toList.count '\n').sum := by
  have hne : interwoven ≠ [] := by decide
  exact ⟨hne, by cbv, by cbv, lift_accounts interwoven hne⟩

end Typeset.Source
