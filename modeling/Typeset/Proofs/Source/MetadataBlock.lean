import Typeset.Proofs.Text.Lines
import Typeset.Source.Document

/-! A document and its metadata block: cutting the block off loses nothing, and a block that is
written before a text is cut off again. -/

namespace Typeset.Source

open Text

variable {cs opening block closing rest : List Char} {ls xs ys : List (List Char)}

/-- The line of dashes that opens a metadata block, and may close it. -/
def dashes : List Char := ['-', '-', '-', '\n']

/-- A line that opens a metadata block: three dashes and a line end of one of two kinds. -/
def IsOpening (line : List Char) : Prop := line = dashes ∨ line = ['-', '-', '-', '\r', '\n']

/-- A text none of whose lines ends a metadata block. -/
def Continues (block : List Char) : Prop := ∀ line ∈ linesWithEnds block, endsBlock line = false

/-- A document whose lines are an opening line, those of a metadata block, the first line that ends
it, and the lines of a rest. -/
structure Framed (cs opening block closing rest : List Char) : Prop where
  opens : IsOpening opening
  lines : linesWithEnds cs = opening :: (linesWithEnds block ++ closing :: linesWithEnds rest)
  continues : Continues block
  closes : endsBlock closing = true

theorem Framed.text_eq (h : Framed cs opening block closing rest) :
    cs = opening ++ (block ++ (closing ++ rest)) := by
  rw [← flatten_linesWithEnds cs, h.lines, List.flatten_cons, List.flatten_append,
    List.flatten_cons, flatten_linesWithEnds, flatten_linesWithEnds]

/-- The search stops at the first line that ends the block. -/
theorem untilEnd_eq_some_iff :
    untilEnd ls = some (xs, ys) ↔
      ∃ closing, ls = xs ++ closing :: ys ∧ (∀ line ∈ xs, endsBlock line = false) ∧
        endsBlock closing = true := by
  induction ls generalizing xs with
  | nil => simp [untilEnd]
  | cons line ls ih =>
    rw [untilEnd]
    constructor
    · intro h
      split at h
      next hends =>
        cases h
        exact ⟨line, rfl, List.forall_mem_nil _, hends⟩
      next hopen =>
        obtain ⟨⟨block, after⟩, hfound, heq⟩ := Option.map_eq_some_iff.mp h
        cases heq
        obtain ⟨closing, rfl, hblock, hends⟩ := ih.mp hfound
        exact ⟨closing, rfl, List.forall_mem_cons.mpr ⟨by simpa using hopen, hblock⟩, hends⟩
    · rintro ⟨closing, heq, hblock, hends⟩
      cases xs with
      | nil =>
        obtain ⟨rfl, rfl⟩ := List.cons.inj heq
        rw [if_pos hends]
      | cons x xs =>
        rw [List.cons_append] at heq
        obtain ⟨rfl, hrest⟩ := List.cons.inj heq
        obtain ⟨hopen, hmore⟩ := List.forall_mem_cons.mp hblock
        rw [if_neg (by simp [hopen]), ih.mpr ⟨closing, hrest, hmore, hends⟩]
        rfl

theorem IsOpening.linesWithEnds_append (h : IsOpening opening) (rest : List Char) :
    linesWithEnds (opening ++ rest) = opening :: linesWithEnds rest := by
  rcases h with rfl | rfl <;> rfl

theorem opensBlock_iff :
    opensBlock cs = true ↔ ∃ opening rest, IsOpening opening ∧ cs = opening ++ rest := by
  rw [opensBlock, Bool.or_eq_true, startsWith, startsWith, List.isPrefixOf_iff_prefix,
    List.isPrefixOf_iff_prefix]
  constructor
  · rintro (⟨rest, h⟩ | ⟨rest, h⟩)
    · exact ⟨_, rest, .inl rfl, h.symm⟩
    · exact ⟨_, rest, .inr rfl, h.symm⟩
  · rintro ⟨opening, rest, rfl | rfl, rfl⟩
    · exact .inl ⟨rest, rfl⟩
    · exact .inr ⟨rest, rfl⟩

/-- A metadata block is cut off exactly where a document is framed by one. -/
theorem splitFrontMatter_eq_some_iff :
    splitFrontMatter cs = (some block, rest) ↔
      ∃ opening closing, Framed cs opening block closing rest := by
  constructor
  · intro h
    rw [splitFrontMatter] at h
    split at h
    next hopens =>
      obtain ⟨opening, text, hopening, rfl⟩ := opensBlock_iff.mp hopens
      rw [hopening.linesWithEnds_append, List.drop_one, List.tail_cons] at h
      split at h
      next xs ys hfound =>
        cases h
        obtain ⟨closing, hlines, hblock, hends⟩ := untilEnd_eq_some_iff.mp hfound
        have hxs := linesWithEnds_flatten hlines
        have hys : linesWithEnds ys.flatten = ys := by
          rw [← List.singleton_append, ← List.append_assoc] at hlines
          exact linesWithEnds_flatten_right hlines
        refine ⟨opening, closing, hopening, ?_, ?_, hends⟩
        · rw [hopening.linesWithEnds_append, hlines, hxs, hys]
        · rw [Continues, hxs]
          exact hblock
      next => cases h
    next => cases h
  · rintro ⟨opening, closing, h⟩
    have hopens : opensBlock cs = true := opensBlock_iff.mpr ⟨_, _, h.opens, h.text_eq⟩
    have hfound : untilEnd ((linesWithEnds cs).drop 1) =
        some (linesWithEnds block, linesWithEnds rest) := by
      rw [h.lines, List.drop_one, List.tail_cons]
      exact untilEnd_eq_some_iff.mpr ⟨closing, rfl, h.continues, h.closes⟩
    rw [splitFrontMatter, if_pos hopens, hfound]
    simp only [flatten_linesWithEnds]

theorem splitFrontMatter_eq_none (h : (splitFrontMatter cs).1 = none) :
    splitFrontMatter cs = (none, cs) := by
  rw [splitFrontMatter] at h ⊢
  split
  next hopens =>
    rw [if_pos hopens] at h
    split
    next hfound =>
      rw [hfound] at h
      cases h
    next => rfl
  next => rfl

/-- Complete lines between two lines of dashes are a metadata block, whatever follows. -/
theorem framed_dashes (hblock : Complete block) (hcontinues : Continues block) :
    Framed (dashes ++ (block ++ (dashes ++ rest))) dashes block dashes rest where
  opens := .inl rfl
  lines := by
    have hdashes (text : List Char) :
        linesWithEnds (dashes ++ text) = dashes :: linesWithEnds text :=
      IsOpening.linesWithEnds_append (.inl rfl) text
    have hjoint : Unjoined block (dashes ++ rest) := fun _ hhead => by cases hhead
    rw [hdashes, linesWithEnds_append hblock hjoint, hdashes]
  continues := hcontinues
  closes := by decide

/-- A document without a metadata block stays as it is, and any other is what was cut off it: an
opening line, the block, the first line that ends it, and the rest. A block of complete lines that
is written before a rest is cut off again. -/
theorem splitFrontMatter_lossless :
    (∀ cs,
      (splitFrontMatter cs = (none, cs) ∧
        ∀ opening block closing rest, ¬ Framed cs opening block closing rest) ∨
      ∃ opening block closing rest, splitFrontMatter cs = (some block, rest) ∧
        cs = opening ++ (block ++ (closing ++ rest)) ∧ Framed cs opening block closing rest) ∧
    ∀ block rest, Complete block → Continues block →
      splitFrontMatter (dashes ++ (block ++ (dashes ++ rest))) = (some block, rest) := by
  constructor
  · intro cs
    cases hsplit : splitFrontMatter cs with
    | mk found rest =>
      cases found with
      | none =>
        have hwhole := splitFrontMatter_eq_none (congrArg Prod.fst hsplit)
        rw [hsplit] at hwhole
        refine .inl ⟨hwhole, fun opening block closing rest h => ?_⟩
        have hsome := splitFrontMatter_eq_some_iff.mpr ⟨opening, closing, h⟩
        rw [hsplit] at hsome
        cases hsome
      | some block =>
        obtain ⟨opening, closing, h⟩ := splitFrontMatter_eq_some_iff.mp hsplit
        exact .inr ⟨opening, block, closing, rest, rfl, h.text_eq, h⟩
  · intro block rest hblock hcontinues
    exact splitFrontMatter_eq_some_iff.mpr ⟨_, _, framed_dashes hblock hcontinues⟩

/-- Lines with ends of four kinds. -/
def mixedLines : List Char := "a: ---\r\n...b\x0b \u2028--\r".toList

theorem splitFrontMatter_lossless_mixedLines :
    Complete mixedLines ∧ Continues mixedLines ∧
      splitFrontMatter (dashes ++ (mixedLines ++ (dashes ++ ['\n', '-', '-', '-', '\n']))) =
        (some mixedLines, ['\n', '-', '-', '-', '\n']) := by
  have hcomplete : Complete mixedLines := by
    rintro c ⟨rfl⟩
    rfl
  have hcontinues : ∀ line ∈ linesWithEnds mixedLines, endsBlock line = false := by decide
  exact ⟨hcomplete, hcontinues, splitFrontMatter_lossless.2 _ _ hcomplete hcontinues⟩

end Typeset.Source
