import Typeset.Proofs.Math.Glyph

/-! Names in the Typst form of a formula: what stands side by side belongs together, and nothing
that comes from different places is read as one name or as a call. -/

namespace Typeset.Math

open Latex (Node Legible)
open Text (isAlphanumeric)

variable {g y : Glyph} {m n : Option Glyph} {p q glyphs : List Glyph} {texts : List (List Glyph)}
  {between name : String} {word text : List Char}

/-- A character that would run into a name or a number before it. -/
def Glyph.grips (g : Glyph) : Bool := isAlphanumeric g.char || g.char == '('

/-- Two characters side by side that belong together: in a name, at the beginning of a call, in a
string, or in a run of characters of the LaTeX. -/
inductive Joins : Glyph → Glyph → Prop
  | name (c d : Char) (word : List Char) (place : Nat) :
    Joins ⟨c, .name word place⟩ ⟨d, .name word (place + 1)⟩
  | call (c : Char) (word : List Char) (place : Nat) : Joins ⟨c, .name word place⟩ ⟨'(', .opening⟩
  | quoted (c d : Char) : Joins ⟨c, .quoted⟩ ⟨d, .quoted⟩
  | data {c d : Char} (next : Option Char) (h : fuses c d = false) :
    Joins ⟨c, .data (some d)⟩ ⟨d, .data next⟩

/-- A character of the LaTeX that nothing keeps apart from the letter or numeral behind it. -/
def Glyph.Clings (g : Glyph) : Prop :=
  ∃ d, g.origin = .data (some d) ∧ isAlphanumeric d = true ∧ fuses g.char d = false

/-- A letter or numeral and what follows it: either something that it belongs together with, or
something that it does not run into. -/
def Meets (g : Glyph) (next : Option Glyph) : Prop :=
  isAlphanumeric g.char = true →
    match next.filter Glyph.grips with
    | some y => Joins g y
    | none => ¬ g.Clings

/-- Every glyph of a text meets the next one, and the last of them what follows the text. -/
def Settled (next : Option Glyph) : List Glyph → Prop
  | [] => True
  | g :: rest => Meets g (rest.head?.or next) ∧ Settled next rest

section Settled

theorem isAlphanumeric_of_isAlphanum {c : Char} (h : c.isAlphanum = true) :
    isAlphanumeric c = true := by
  have hascii : ∀ k < 123, Char.isAlphanum (Char.ofNat k) = true →
      isAlphanumeric (Char.ofNat k) = true := by decide +kernel
  have hsmall : c.toNat < 123 := by
    have hupper : 'Z'.val.toNat = 90 := rfl
    have hlower : 'z'.val.toNat = 122 := rfl
    have hdigit : '9'.val.toNat = 57 := rfl
    delta Char.isAlphanum Char.isAlpha Char.isUpper Char.isLower Char.isDigit at h
    simp only [Bool.or_eq_true, Bool.and_eq_true, decide_eq_true_eq, ge_iff_le,
      UInt32.le_iff_toNat_le] at h
    rw [Char.toNat]
    omega
  have hc := hascii c.toNat hsmall
  rw [Char.ofNat_toNat] at hc
  exact hc h

theorem isAlphanumeric_of_fuses {c d : Char} (h : fuses c d = true) :
    isAlphanumeric c = true ∧ isAlphanumeric d = true := by
  simp only [fuses, Bool.or_eq_true, Bool.and_eq_true] at h
  have hc : c.isAlphanum = true := by
    rw [Char.isAlphanum, Bool.or_eq_true]
    exact h.imp And.left And.left
  have hd : d.isAlphanum = true := by
    rcases h with h | h
    · exact h.2
    · rw [Char.isAlphanum, h.2, Bool.true_or]
  exact ⟨isAlphanumeric_of_isAlphanum hc, isAlphanumeric_of_isAlphanum hd⟩

theorem meets_of_symbol (h : isAlphanumeric g.char = false) (n : Option Glyph) : Meets g n := by
  intro hg
  rw [h] at hg
  cases hg

theorem Meets.congr (h : Meets g m) (heq : m.filter Glyph.grips = n.filter Glyph.grips) :
    Meets g n := by
  rwa [Meets, ← heq]

theorem Settled.congr (h : Settled m p) (heq : m.filter Glyph.grips = n.filter Glyph.grips) :
    Settled n p := by
  induction p with
  | nil => trivial
  | cons g p ih =>
    refine ⟨h.1.congr ?_, ih h.2⟩
    cases p with
    | nil => exact heq
    | cons g' p => rfl

theorem settled_append :
    Settled n (p ++ q) ↔ Settled (q.head?.or n) p ∧ Settled n q := by
  induction p with
  | nil => exact ⟨fun h => ⟨trivial, h⟩, fun h => h.2⟩
  | cons g p ih =>
    have hhead : ((p ++ q).head?.or n) = p.head?.or (q.head?.or n) := by
      cases p <;> simp
    rw [List.cons_append, Settled, ih, Settled, hhead, and_assoc]

/-- What follows a text matters to its last glyph only. -/
theorem Settled.of_last (h : Settled none p)
    (hlast : ∀ g ∈ p.getLast?, isAlphanumeric g.char = true → n.filter Glyph.grips = none) :
    Settled n p := by
  induction p with
  | nil => trivial
  | cons g p ih =>
    cases p with
    | nil =>
      refine ⟨?_, trivial⟩
      intro hg
      have hn := hlast g rfl hg
      rw [List.head?_nil, Option.none_or, hn]
      exact h.1 hg
    | cons g' p => exact ⟨h.1, ih h.2 fun g hg => hlast g (by rwa [List.getLast?_cons_cons])⟩

theorem settled_of_symbols (h : ∀ g ∈ p, isAlphanumeric g.char = false) (n : Option Glyph) :
    Settled n p := by
  induction p with
  | nil => trivial
  | cons g p ih =>
    obtain ⟨hg, hp⟩ := List.forall_mem_cons.mp h
    exact ⟨meets_of_symbol hg _, ih hp⟩

theorem Settled.symbols_append (h : Settled n q) (hp : ∀ g ∈ p, isAlphanumeric g.char = false) :
    Settled n (p ++ q) :=
  settled_append.mpr ⟨settled_of_symbols hp _, h⟩

theorem Settled.meets {before after : List Glyph} (h : Settled none (before ++ g :: after)) :
    Meets g after.head? := by
  obtain ⟨-, hg, -⟩ := settled_append.mp h
  rwa [Option.or_none] at hg

/-- Before something that does not run into it, a text is as if nothing followed it. -/
theorem Settled.append_apart (hp : Settled none p) (hq : Settled n q)
    (hhead : (q.head?.or n).filter Glyph.grips = none) : Settled n (p ++ q) :=
  settled_append.mpr ⟨hp.congr hhead.symm, hq⟩

end Settled

section Space

/-- The code points of white space. -/
def blankCodes : List Nat :=
  [9, 10, 11, 12, 13, 28, 29, 30, 31, 32, 0x85, 0xA0, 0x1680, 0x2000, 0x2001, 0x2002, 0x2003,
   0x2004, 0x2005, 0x2006, 0x2007, 0x2008, 0x2009, 0x200A, 0x2028, 0x2029, 0x202F, 0x205F, 0x3000]

theorem isAlphanumeric_of_isBlank {c : Char} (h : Text.isBlank c = true) :
    isAlphanumeric c = false := by
  have hcodes : ∀ k ∈ blankCodes, Text.inside Text.alphanumericFlips k = false := by
    decide +kernel
  refine hcodes c.toNat ?_
  simp only [Text.isBlank, Bool.or_eq_true, Bool.and_eq_true, decide_eq_true_eq, beq_iff_eq] at h
  simp only [blankCodes, List.mem_cons, List.not_mem_nil, or_false]
  omega

theorem grips_of_isBlank (h : g.isBlank = true) : g.grips = false := by
  have hopen : g.char ≠ '(' := ne_of_isBlank h rfl
  rw [Glyph.grips, isAlphanumeric_of_isBlank h, Bool.false_or, beq_eq_false_iff_ne]
  exact hopen

theorem filter_head_of_blank (h : ∀ g ∈ p, g.isBlank = true) :
    (p.head?.or none).filter Glyph.grips = none := by
  cases p with
  | nil => rfl
  | cons g p => simp [Option.filter, grips_of_isBlank (h g List.mem_cons_self)]

theorem exists_dropWhile_blank (p : List Glyph) :
    ∃ lead, p = lead ++ p.dropWhile Glyph.isBlank ∧ ∀ g ∈ lead, g.isBlank = true :=
  ⟨p.takeWhile Glyph.isBlank, List.takeWhile_append_dropWhile.symm, fun _ => List.mem_takeWhile_imp⟩

theorem exists_rdropWhile_blank (p : List Glyph) :
    ∃ blanks, p = p.rdropWhile Glyph.isBlank ++ blanks ∧ ∀ g ∈ blanks, g.isBlank = true :=
  ⟨p.rtakeWhile Glyph.isBlank, List.rdropWhile_append_rtakeWhile.symm, fun _ =>
    List.mem_rtakeWhile_imp⟩

theorem exists_trimGlyphs (p : List Glyph) :
    ∃ lead blanks, p = lead ++ (trimGlyphs p ++ blanks) ∧ (∀ g ∈ lead, g.isBlank = true) ∧
      ∀ g ∈ blanks, g.isBlank = true := by
  obtain ⟨lead, hp, hlead⟩ := exists_dropWhile_blank p
  obtain ⟨blanks, hrest, hblanks⟩ := exists_rdropWhile_blank (p.dropWhile Glyph.isBlank)
  refine ⟨lead, blanks, ?_, hlead, hblanks⟩
  rw [trimGlyphs, ← hrest]
  exact hp

theorem Settled.of_lead {lead : List Glyph} (h : Settled none (lead ++ p)) : Settled none p :=
  (settled_append.mp h).2

theorem Settled.of_blanks {blanks : List Glyph} (h : Settled none (p ++ blanks))
    (hblanks : ∀ g ∈ blanks, g.isBlank = true) : Settled none p :=
  (settled_append.mp h).1.congr (filter_head_of_blank hblanks)

theorem Settled.trim (h : Settled none p) : Settled none (trimGlyphs p) := by
  obtain ⟨lead, blanks, hp, -, hblanks⟩ := exists_trimGlyphs p
  rw [hp] at h
  exact h.of_lead.of_blanks hblanks

/-- The blank that white space is made one with. -/
theorem exists_blank_squeezeGlyphs (h : (squeezeGlyphs p).head?.any (·.char == ' ') = true) :
    ∃ y more, squeezeGlyphs p = y :: more ∧ y.isBlank = true := by
  obtain ⟨y, hhead, hy⟩ := (Option.any_eq_true _ _).mp h
  obtain ⟨more, hsqueezed⟩ := List.head?_eq_some_iff.mp hhead
  refine ⟨y, more, hsqueezed, ?_⟩
  rw [Glyph.isBlank, beq_iff_eq.mp hy]
  rfl

theorem filter_head_squeezeGlyphs (p : List Glyph) :
    (squeezeGlyphs p).head?.filter Glyph.grips = p.head?.filter Glyph.grips := by
  have hgap : Glyph.grips ⟨' ', .filling⟩ = false := by decide
  cases p with
  | nil => rfl
  | cons g p =>
    rw [squeezeGlyphs]
    cases hg : g.isBlank with
    | false => rfl
    | true =>
      rw [if_pos rfl, List.head?_cons, Option.filter_some, grips_of_isBlank hg]
      split
      next hhead =>
        obtain ⟨y, more, hsqueezed, hblank⟩ := exists_blank_squeezeGlyphs hhead
        rw [hsqueezed, List.head?_cons, Option.filter_some, grips_of_isBlank hblank]
        rfl
      next =>
        rw [List.head?_cons, Option.filter_some, hgap]
        rfl

theorem Settled.squeeze (h : Settled none p) : Settled none (squeezeGlyphs p) := by
  induction p with
  | nil => trivial
  | cons g p ih =>
    rw [squeezeGlyphs]
    cases hg : g.isBlank with
    | false =>
      refine ⟨h.1.congr ?_, ih h.2⟩
      rw [Option.or_none, Option.or_none, filter_head_squeezeGlyphs]
    | true =>
      rw [if_pos rfl]
      split
      · exact ih h.2
      · exact ⟨meets_of_symbol (by decide) _, ih h.2⟩

end Space

section Put

theorem settled_nameFrom (word : List Char) (place : Nat) (cs : List Char)
    (hn : n.filter Glyph.grips = none ∨ n = some ⟨'(', .opening⟩) :
    Settled n (nameFrom word place cs) := by
  induction cs generalizing place with
  | nil => trivial
  | cons c cs ih =>
    have hloose (d : Char) : ¬ Glyph.Clings ⟨d, .name word place⟩ := by
      rintro ⟨_, ⟨⟩, -⟩
    refine ⟨fun hc => ?_, ih (place + 1)⟩
    cases cs with
    | nil =>
      rw [nameFrom, List.head?_nil, Option.none_or]
      rcases hn with hn | rfl
      · rw [hn]
        exact hloose c
      · exact .call c word place
    | cons d cs =>
      rw [nameFrom, List.head?_cons, Option.some_or, Option.filter_some]
      cases Glyph.grips ⟨d, .name word (place + 1)⟩ with
      | true => exact .name c d word place
      | false => exact hloose c

theorem settled_nameGlyphs (word : List Char) : Settled none (nameGlyphs word) :=
  settled_nameFrom word 0 word (.inl rfl)

/-- Behind the parenthesis that opens a call anything may stand. -/
theorem settled_callGlyphs (word : List Char) (n : Option Glyph) : Settled n (callGlyphs word) :=
  settled_append.mpr ⟨settled_nameFrom word 0 word (.inr rfl), meets_of_symbol (by decide) _,
    trivial⟩

theorem settled_quoted (cs : List Char) :
    Settled none (quotedGlyphs cs) := by
  induction cs with
  | nil => trivial
  | cons c cs ih =>
    have hloose : ¬ Glyph.Clings ⟨c, .quoted⟩ := by
      rintro ⟨_, ⟨⟩, -⟩
    refine ⟨fun hc => ?_, ih⟩
    cases cs with
    | nil => exact hloose
    | cons d cs =>
      rw [List.map_cons, List.head?_cons, Option.some_or, Option.filter_some]
      cases Glyph.grips ⟨d, .quoted⟩ with
      | true => exact .quoted c d
      | false => exact hloose

/-- Characters of the LaTeX run into each other only where nothing is put between them. -/
theorem settled_dataGlyphs (text : List Char) : Settled none (dataGlyphs text) := by
  induction text with
  | nil => trivial
  | cons c rest ih =>
    have hmark : Settled (some ⟨c, .data rest.head?⟩)
        (if c == '"' || c == '/' then [⟨'\\', .filling⟩] else []) := by
      split
      · exact ⟨meets_of_symbol (by decide) _, trivial⟩
      · trivial
    have hgap : Settled ((dataGlyphs rest).head?)
        (filling (if rest.head?.any (fuses c) then [' '] else [])) := by
      split
      · exact ⟨meets_of_symbol (by decide) _, trivial⟩
      · trivial
    rw [dataGlyphs]
    refine settled_append.mpr ⟨hmark, fun hc => ?_, settled_append.mpr ⟨?_, ih⟩⟩
    · cases rest with
      | nil =>
        rintro ⟨_, ⟨⟩, -⟩
      | cons d more =>
        rw [List.head?_cons, Option.any_some]
        cases hfuses : fuses c d with
        | true =>
          rintro ⟨d', hnext, -, hfree⟩
          cases hnext
          rw [hfuses] at hfree
          cases hfree
        | false =>
          rw [if_neg (by decide), filling, List.map_nil, List.nil_append, dataGlyphs]
          by_cases hd : (d == '"' || d == '/') = true
          · rw [if_pos hd]
            -- a character that is marked is neither a letter nor a numeral
            rintro ⟨d', hnext, halnum, -⟩
            cases hnext
            simp only [Bool.or_eq_true, beq_iff_eq] at hd
            rcases hd with rfl | rfl
            · revert halnum
              decide
            · revert halnum
              decide
          · rw [if_neg hd, List.nil_append, List.head?_cons, Option.some_or, Option.filter_some]
            cases hgrips : Glyph.grips ⟨d, .data more.head?⟩ with
            | true => exact .data _ hfuses
            | false =>
              rintro ⟨d', hnext, halnum, -⟩
              cases hnext
              rw [Glyph.grips, halnum] at hgrips
              cases hgrips
    · rwa [Option.or_none]

end Put

section Draft

variable {out : Draft} {piece : List Glyph}

theorem filter_head_of_mark (h : ∃ g more, p = g :: more ∧ isScriptMark g.char = true) :
    p.head?.filter Glyph.grips = none := by
  obtain ⟨g, more, rfl, hmark⟩ := h
  simp only [isScriptMark, Bool.or_eq_true, beq_iff_eq] at hmark
  have hgrips : g.grips = false := by
    rw [Glyph.grips]
    rcases hmark with hmark | hmark
    · rw [hmark]
      decide
    · rw [hmark]
      decide
  rw [List.head?_cons, Option.filter_some, hgrips]
  rfl

theorem filter_head_of_runsInto {before : List Glyph}
    (h : runsInto (glyphText before) (glyphText piece) = false) (hpiece : piece ≠ [])
    (hlast : ∃ g ∈ before.getLast?, isAlphanumeric g.char = true) :
    piece.head?.filter Glyph.grips = none := by
  obtain ⟨g, hg, halnum⟩ := hlast
  obtain ⟨y, rest, rfl⟩ := List.exists_cons_of_ne_nil hpiece
  have hchar : (glyphText before).getLast? = some g.char := by
    rw [glyphText, List.getLast?_map, hg]
    rfl
  have hgrips : y.grips = false := by
    simpa [runsInto, hchar, halnum, Glyph.grips] using h
  rw [List.head?_cons, Option.filter_some, hgrips]
  rfl

theorem exists_of_startsScript (h : startsScript (glyphText piece) = true) :
    ∃ g more, piece.dropWhile Glyph.isBlank = g :: more ∧ isScriptMark g.char = true := by
  rw [startsScript, ← glyphText_dropWhile] at h
  cases hdrop : piece.dropWhile Glyph.isBlank with
  | nil =>
    rw [hdrop] at h
    cases h
  | cons g more =>
    rw [hdrop] at h
    exact ⟨g, more, rfl, h⟩

/-- What becomes of the last piece and of another one behind it: white space makes way for a script
mark, and a blank keeps names apart. -/
theorem Draft.exists_add (before : List Glyph) (earlier : List (List Glyph)) (hpiece : piece ≠ []) :
    ∃ kept blanks lead rest, before = kept ++ blanks ∧ piece = lead ++ rest ∧
      (∀ g ∈ blanks, g.isBlank = true) ∧ (∀ g ∈ lead, g.isBlank = true) ∧
      (blanks = [] ∧ lead = [] ∨ ∃ g more, rest = g :: more ∧ isScriptMark g.char = true) ∧
      ((Draft.mk (before :: earlier)).add piece).reversed =
        (if runsInto (glyphText kept) (glyphText rest) then ⟨' ', .filling⟩ :: rest else rest) ::
          kept :: earlier := by
  have hne : piece.isEmpty = false := by
    rw [List.isEmpty_eq_false_iff]
    exact hpiece
  rw [add, hne, if_neg (by decide)]
  dsimp only
  by_cases hscript : startsScript (glyphText piece) = true
  · obtain ⟨blanks, hbefore, hblanks⟩ := exists_rdropWhile_blank before
    obtain ⟨lead, hput, hlead⟩ := exists_dropWhile_blank piece
    rw [if_pos hscript]
    exact ⟨_, blanks, lead, _, hbefore, hput, hblanks, hlead,
      .inr (exists_of_startsScript hscript), rfl⟩
  · rw [if_neg hscript]
    exact ⟨before, [], [], piece, (List.append_nil _).symm, rfl, by simp, by simp,
      .inl ⟨rfl, rfl⟩, rfl⟩

/-- Where another piece is put: what stays of the text before it, and what is left of the piece,
with a blank between them or nothing that runs together. -/
structure Draft.Seam (out : Draft) (piece kept blanks gap lead rest : List Glyph) : Prop where
  before_eq : out.whole = kept ++ blanks
  piece_eq : piece = lead ++ rest
  whole_eq : (out.add piece).whole = kept ++ (gap ++ rest)
  blank_behind : ∀ g ∈ blanks, g.isBlank = true
  blank_ahead : ∀ g ∈ lead, g.isBlank = true
  mark : blanks = [] ∧ lead = [] ∨ ∃ g more, rest = g :: more ∧ isScriptMark g.char = true
  apart : gap = filling [' '] ∨ gap = [] ∧ ((∀ p ∈ out.reversed.head?, p ≠ []) →
    (∃ g ∈ kept.getLast?, isAlphanumeric g.char = true) → rest.head?.filter Glyph.grips = none)

theorem Draft.exists_seam (out : Draft) (piece : List Glyph) :
    ∃ kept blanks gap lead rest, out.Seam piece kept blanks gap lead rest := by
  obtain ⟨reversed⟩ := out
  by_cases hpiece : piece = []
  · subst hpiece
    exact ⟨_, [], [], [], [], (List.append_nil _).symm, rfl, by simp [add], by simp, by simp,
      .inl ⟨rfl, rfl⟩, .inr ⟨rfl, fun _ _ => rfl⟩⟩
  cases reversed with
  | nil =>
    exact ⟨[], [], [], [], piece, rfl, rfl, by simp [add, hpiece, whole], by simp, by simp,
      .inl ⟨rfl, rfl⟩, .inr ⟨rfl, by simp⟩⟩
  | cons before earlier =>
    obtain ⟨kept, blanks, lead, rest, hbefore, hput, hblanks, hlead, hmark, hadd⟩ :=
      exists_add before earlier hpiece
    have hwhole : (Draft.mk (before :: earlier)).whole =
        earlier.reverse.flatten ++ kept ++ blanks := by
      simp [whole, hbefore]
    cases hruns : runsInto (glyphText kept) (glyphText rest) with
    | true =>
      rw [hruns, if_pos rfl] at hadd
      exact ⟨_, blanks, filling [' '], lead, rest, hwhole, hput, by simp [whole, hadd, filling],
        hblanks, hlead, hmark, .inl rfl⟩
    | false =>
      rw [hruns, if_neg (by decide)] at hadd
      refine ⟨_, blanks, [], lead, rest, hwhole, hput, by simp [whole, hadd], hblanks, hlead, hmark,
        .inr ⟨rfl, fun hlast hkept => ?_⟩⟩
      rcases hmark with ⟨rfl, rfl⟩ | hmark
      · rw [List.append_nil] at hbefore
        rw [List.nil_append] at hput
        rw [← hbefore, List.getLast?_append_of_ne_nil _ (hlast before rfl), hbefore] at hkept
        exact filter_head_of_runsInto hruns (hput ▸ hpiece) hkept
      · exact filter_head_of_mark hmark

theorem Draft.add_last (hlast : ∀ p ∈ out.reversed.head?, p ≠ []) (piece : List Glyph) :
    ∀ p ∈ (out.add piece).reversed.head?, p ≠ [] := by
  obtain ⟨reversed⟩ := out
  by_cases hpiece : piece = []
  · subst hpiece
    exact hlast
  cases reversed with
  | nil => simp [add, hpiece]
  | cons before earlier =>
    obtain ⟨kept, blanks, lead, rest, -, rfl, -, -, hmark, hadd⟩ :=
      exists_add before earlier hpiece
    have hrest : rest ≠ [] := by
      rcases hmark with ⟨-, rfl⟩ | ⟨g, more, rfl, -⟩
      · exact hpiece
      · exact List.cons_ne_nil g more
    rw [hadd]
    rintro _ ⟨⟩
    split
    · exact List.cons_ne_nil _ _
    · exact hrest

theorem Settled.add (h : Settled none out.whole) (hpiece : Settled none piece)
    (hlast : ∀ p ∈ out.reversed.head?, p ≠ []) : Settled none (out.add piece).whole := by
  obtain ⟨kept, blanks, gap, lead, rest, hseam⟩ := out.exists_seam piece
  rw [hseam.before_eq] at h
  rw [hseam.piece_eq] at hpiece
  have hkept := h.of_blanks hseam.blank_behind
  have hrest := hpiece.of_lead
  rw [hseam.whole_eq]
  rcases hseam.apart with rfl | ⟨rfl, hfree⟩
  · exact hkept.append_apart (hrest.symbols_append (by decide)) rfl
  · refine settled_append.mpr ⟨hkept.of_last fun g hg halnum => ?_, hrest⟩
    rw [List.nil_append, Option.or_none]
    exact hfree hlast ⟨g, hg, halnum⟩

end Draft

section Parts

variable {layout : Layout} {cells : List (List (List Glyph))} {arguments rest after : List Node}

theorem Settled.parenthesized (h : Settled none p) :
    Settled none (filling ['('] ++ p ++ filling [')']) := by
  rw [List.append_assoc]
  exact (h.append_apart (settled_of_symbols (by decide) none) rfl).symbols_append (by decide)

theorem Settled.operandGlyphs (h : Settled none p) (out : Draft) :
    Settled none (out.operandGlyphs p) := by
  rcases out.operandGlyphs_cases p with heq | heq | heq <;> rw [heq]
  · exact h
  · exact h.trim
  · exact h.trim.parenthesized

/-- What can be put between texts so that they stay apart. -/
def Divides (between : String) : Prop :=
  between.toList ≠ [] ∧ ∀ g ∈ filling between.toList, g.grips = false

instance : DecidablePred Divides := fun _ => inferInstanceAs (Decidable (_ ∧ _))

theorem settled_joined (h : ∀ p ∈ texts, Settled none p) (hbetween : Divides between) :
    Settled none (joinedGlyphs between texts) := by
  obtain ⟨hne, hfree⟩ := hbetween
  have hsymbols : ∀ g ∈ filling between.toList, isAlphanumeric g.char = false := by
    intro g hg
    have hgrips := hfree g hg
    rw [Glyph.grips, Bool.or_eq_false_iff] at hgrips
    exact hgrips.1
  have hhead (q : List Glyph) : (filling between.toList ++ q).head?.filter Glyph.grips = none := by
    obtain ⟨c, cs, hcs⟩ := List.exists_cons_of_ne_nil hne
    rw [hcs] at hfree ⊢
    have hc := hfree _ List.mem_cons_self
    rw [filling, List.map_cons, List.cons_append, List.head?_cons, Option.filter_some, hc]
    rfl
  induction texts with
  | nil => trivial
  | cons p texts ih =>
    obtain ⟨hp, htexts⟩ := List.forall_mem_cons.mp h
    cases texts with
    | nil => rwa [joinedGlyphs_singleton]
    | cons q texts =>
      rw [joinedGlyphs_cons_cons]
      refine hp.append_apart ((ih htexts).symbols_append hsymbols) ?_
      rw [Option.or_none]
      exact hhead _

theorem settled_call (word : List Char) (h : Settled none p) :
    Settled none (callGlyphs word ++ p ++ filling [')']) :=
  (settled_append.mpr ⟨settled_callGlyphs word _, h⟩).append_apart
    (settled_of_symbols (by decide) none) rfl

theorem settled_appliedGlyphs (function : String) (h : ∀ p ∈ texts, Settled none p) :
    Settled none (appliedGlyphs function texts) :=
  settled_call _ (settled_joined h (by decide +kernel))

theorem settled_openingGlyphs (delimiters : Delimiters) (n : Option Glyph) :
    Settled n (openingGlyphs delimiters) := by
  cases delimiters with
  | usual => exact settled_callGlyphs _ _
  | given text =>
    have hvalue : Settled none (if text = "#none" then filling ['#'] ++ nameGlyphs "none".toList
        else quotedGlyphs text.toList) := by
      split
      · exact (settled_nameGlyphs _).symbols_append (by decide)
      · exact settled_quoted _
    rw [openingGlyphs]
    simp only [List.append_assoc]
    refine settled_append.mpr ⟨settled_callGlyphs _ _, ?_⟩
    refine (settled_nameGlyphs _).append_apart (.symbols_append ?_ (by decide)) rfl
    exact hvalue.append_apart (settled_of_symbols (by decide) n) rfl

theorem settled_layoutGlyphs (h : ∀ row ∈ cells, ∀ cell ∈ row, Settled none cell) :
    Settled none (layoutGlyphs layout cells) := by
  have hrows {inner outer : String} (hinner : Divides inner) (houter : Divides outer) :
      Settled none (joinedGlyphs outer ((cells.filter fun row =>
        row.any fun cell => !cell.isEmpty).map (joinedGlyphs inner))) := by
    refine settled_joined (fun p hp => ?_) houter
    obtain ⟨row, hrow, rfl⟩ := List.mem_map.mp hp
    exact settled_joined (h row (List.mem_filter.mp hrow).1) hinner
  cases layout with
  | matrix delimiters =>
    exact (settled_append.mpr ⟨settled_openingGlyphs delimiters _,
      hrows (by decide +kernel) (by decide +kernel)⟩).append_apart
        (settled_of_symbols (by decide) none) rfl
  | cases => exact settled_call _ (hrows (by decide +kernel) (by decide +kernel))
  | lines => exact hrows (by decide +kernel) (by decide +kernel)

theorem settled_specials : ∀ source ∈ Latex.specials,
    ∀ g ∈ filling (if source = ['~'] then [' '] else source), isAlphanumeric g.char = false := by
  decide

theorem settled_readyGlyphs (h : form name arguments rest = .ok (.ready text, after)) :
    Settled none (readyGlyphs name text) := by
  have hgap : ∀ g ∈ filling [' '], isAlphanumeric g.char = false := by decide
  have hstands := stands_readyGlyphs h
  generalize readyGlyphs name text = glyphs at hstands ⊢
  cases hstands with
  | nothing => trivial
  | @name word hrole =>
    exact ((settled_nameGlyphs word.toList).symbols_append hgap).append_apart
      (settled_of_symbols hgap none) rfl
  | string cs => exact settled_quoted _
  | operator cs => exact settled_append.mpr ⟨settled_callGlyphs _ _, settled_quoted _⟩

/-- What is put together stays apart where it has to, at every step of the writer. -/
theorem kept_settled (known : List Node → Pieces → Prop) :
    Kept known (fun out => (∀ p ∈ out.reversed.head?, p ≠ []) ∧ Settled none out.whole)
      (Settled none) where
  empty := ⟨by rintro _ ⟨⟩, trivial⟩
  text hout := hout.2.squeeze.trim
  add _ _ _ hout hpiece := ⟨Draft.add_last hout.1 _, hout.2.add hpiece hout.1⟩
  operand hpiece := hpiece.operandGlyphs _
  data _ := settled_dataGlyphs _
  special source hsource := settled_of_symbols (settled_specials source hsource) none
  ready _ hform := settled_readyGlyphs hform
  applied _ htexts := settled_appliedGlyphs _ htexts
  layout _ hcells := settled_layoutGlyphs hcells

end Parts

end Typeset.Math
