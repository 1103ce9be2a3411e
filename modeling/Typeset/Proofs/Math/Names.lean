import Typeset.Proofs.Math.Enclosed
import Typeset.Proofs.Math.Entire

/-! The names in the Typst form of a formula, outside its strings: each of them is one that the
writer puts down as a whole, and it is called only where the writer calls it. -/

namespace Typeset.Math

open Latex (Node Legible)
open Text (isAlphanumeric)

variable {g : Glyph} {p : List Glyph} {nodes : List Node} {word text : List Char} {name : String}

/-- The names that a formula can bring with it: keywords, and what its commands are called. -/
def IsName (nodes : List Node) (word : List Char) : Prop :=
  (∃ keyword ∈ keywords, word = keyword.toList) ∨
    ∃ name source arguments rest held symbol,
      Reaches nodes {} (.command name source arguments :: rest) held ∧
        role name = .name symbol ∧ word = symbol.toList

/-- A character of a name is the one that the name has at its place. -/
def Spelled (nodes : List Node) (g : Glyph) : Prop :=
  ∀ word place, g.origin = .name word place → IsName nodes word ∧ word[place]? = some g.char

section Spelled

theorem isName_keyword {keyword : String} (h : keyword ∈ keywords) :
    IsName nodes keyword.toList :=
  .inl ⟨keyword, h, rfl⟩

theorem spelled_nameFrom (hword : IsName nodes word) (place : Nat) :
    ∀ g ∈ nameFrom word place (word.drop place), Spelled nodes g := by
  induction hcs : word.drop place generalizing place with
  | nil => simp [nameFrom]
  | cons c cs ih =>
    rw [nameFrom, List.forall_mem_cons]
    refine ⟨?_, ih (place + 1) ?_⟩
    · rintro _ _ ⟨⟩
      exact ⟨hword, by rw [← List.head?_drop, hcs, List.head?_cons]⟩
    · rw [← List.tail_drop, hcs, List.tail_cons]

theorem spelled_nameGlyphs (hword : IsName nodes word) :
    ∀ g ∈ nameGlyphs word, Spelled nodes g :=
  spelled_nameFrom hword 0

theorem mem_squeezeGlyphs (h : g ∈ squeezeGlyphs p) : g ∈ p ∨ g = ⟨' ', .filling⟩ := by
  induction p with
  | nil => cases h
  | cons y p ih =>
    rw [squeezeGlyphs] at h
    have hrest (hg : g ∈ squeezeGlyphs p) : g ∈ y :: p ∨ g = ⟨' ', .filling⟩ :=
      (ih hg).imp_left (List.mem_cons_of_mem y)
    split at h
    · split at h
      · exact hrest h
      · rcases List.mem_cons.mp h with rfl | h
        · exact .inr rfl
        · exact hrest h
    · rcases List.mem_cons.mp h with rfl | h
      · exact .inl List.mem_cons_self
      · exact hrest h

theorem assembles_spelled (nodes : List Node) :
    Assembles fun glyphs => ∀ g ∈ glyphs, Spelled nodes g where
  nameless h g hg word place hname := absurd hname (h g hg word place)
  keyword h := spelled_nameGlyphs (isName_keyword h)
  append hp hq := List.forall_mem_append.mpr ⟨hp, hq⟩
  of_blanks h _ := (List.forall_mem_append.mp h).1
  of_lead h _ := (List.forall_mem_append.mp h).2
  squeeze h g hg := by
    rcases mem_squeezeGlyphs hg with hg | rfl
    · exact h g hg
    · rintro word place ⟨⟩

/-- Names are put down as they are spelled, and kept so at every step of the writer. -/
theorem kept_spelled (nodes : List Node) :
    Kept (Reaches nodes {}) (fun out => ∀ g ∈ out.whole, Spelled nodes g)
      fun glyphs => ∀ g ∈ glyphs, Spelled nodes g :=
  (assembles_spelled nodes).kept fun hplace hrole =>
    spelled_nameGlyphs (.inr ⟨_, _, _, _, _, _, hplace, hrole, rfl⟩)

end Spelled

section Called

/-- A name with a parenthesis in it has nothing else in it that could be called. -/
def Uncalled (word : List Char) : Prop := '(' ∉ word ∨ word.all (fun c => !isAlphanumeric c) = true

instance : DecidablePred Uncalled := fun _ => inferInstanceAs (Decidable (_ ∨ _))

theorem uncalled_keywords : ∀ keyword ∈ keywords, Uncalled keyword.toList := by
  decide +kernel

theorem uncalled_symbolTable : ∀ row ∈ symbolTable, Uncalled row.2.toList := by
  decide +kernel

theorem uncalled_own (h : Latex.IsCommandName name) : Uncalled name.toList := by
  cases h with
  | word hword =>
    refine .inl fun hopen => ?_
    have hletter := hword '(' hopen
    revert hletter
    decide
  | sign c =>
    rw [String.toList_singleton]
    by_cases hc : c = '('
    · rw [hc]
      exact .inr (by decide)
    · exact .inl (by simpa using Ne.symm hc)
  | @delimiter c hc =>
    rw [String.toList_ofList]
    have hall : Latex.delimiterChars.all (fun d => decide (Uncalled ['\\', d])) = true := by decide
    exact of_decide_eq_true (List.all_eq_true.mp hall c hc)

theorem uncalled_symbol (hname : Latex.IsCommandName name) {symbol : String}
    (h : role name = .name symbol) : Uncalled symbol.toList := by
  have hspells := spells_role name
  rw [h] at hspells
  cases hspells with
  | symbol hsymbol =>
    rcases cases_of_symbol? hsymbol with ⟨-, rfl⟩ | hmem
    · exact uncalled_own hname
    · exact uncalled_symbolTable _ hmem
  | own => exact uncalled_own hname

theorem IsName.uncalled (h : IsName nodes word) (hlegible : ∀ n ∈ nodes, Legible n) :
    Uncalled word := by
  obtain ⟨keyword, hkeyword, rfl⟩ | ⟨name, source, arguments, rest, held, symbol, hplace, hrole,
    rfl⟩ := h
  · exact uncalled_keywords keyword hkeyword
  · cases hplace.legible hlegible _ List.mem_cons_self with
    | command _ hname _ => exact uncalled_symbol hname hrole

end Called

/-- Two characters side by side in a formula as they are meant: letters and numerals that run
together are from one name, and a name with a parenthesis behind it is called. -/
def Apart (x y : Glyph) : Prop :=
  (fuses x.char y.char = true →
    ∃ word place, x.origin = .name word place ∧ y.origin = .name word (place + 1)) ∧
  ∀ word place, x.origin = .name word place → isAlphanumeric x.char = true → y.char = '(' →
    y.origin = .opening

/-- What stands behind a text is read outside strings. -/
def Outside (before : List Glyph) : Prop :=
  (Mode.plain.behind (glyphText before)).inString = false

/-- Everything that is read outside strings is as it is meant. -/
def Unmixed (glyphs : List Glyph) : Prop :=
  ∀ before x y after, glyphs = before ++ x :: y :: after → Outside before → Apart x y

section Apart

variable {x y : Glyph}

theorem grips_of_fuses (h : fuses x.char y.char = true) : y.grips = true := by
  rw [Glyph.grips, (isAlphanumeric_of_fuses h).2, Bool.true_or]

theorem Meets.joins (h : Meets x (some y)) (hx : isAlphanumeric x.char = true)
    (hy : y.grips = true) : Joins x y := by
  have hjoins := h hx
  rwa [Option.filter_some, hy, if_pos rfl] at hjoins

/-- Only in a string can letters run together without being a name. -/
theorem Meets.apart (h : Meets x (some y)) (hx : Spelled nodes x) (hy : Spelled nodes y)
    (hlegible : ∀ n ∈ nodes, Legible n)
    (hquoted : x.origin = .quoted → y.origin = .quoted → fuses x.char y.char = false) :
    Apart x y := by
  constructor
  · intro hfuses
    have hjoins := h.joins (isAlphanumeric_of_fuses hfuses).1 (grips_of_fuses hfuses)
    cases hjoins with
    | name c d word place => exact ⟨word, place, rfl, rfl⟩
    | call c word place =>
      have hopen : isAlphanumeric '(' = true := (isAlphanumeric_of_fuses hfuses).2
      exact absurd hopen (by decide)
    | quoted c d =>
      rw [hquoted rfl rfl] at hfuses
      cases hfuses
    | data next hfree =>
      rw [hfree] at hfuses
      cases hfuses
  · intro word place hname halnum hopen
    have hgrips : y.grips = true := by
      rw [Glyph.grips, hopen]
      decide
    have hjoins := h.joins halnum hgrips
    cases hjoins with
    | name c d word place =>
      obtain ⟨hword, hc⟩ := hx word place rfl
      have hd := (hy word (place + 1) rfl).2
      rcases hword.uncalled hlegible with hnone | hsigns
      · exact absurd (hopen ▸ List.mem_of_getElem? hd) hnone
      · have hsign := List.all_eq_true.mp hsigns c (List.mem_of_getElem? hc)
        rw [halnum] at hsign
        cases hsign
    | call => rfl
    | quoted => cases hname
    | data => cases hname

theorem Enclosed.outside {before rest : List Glyph} (h : Enclosed .plain (before ++ x :: rest))
    (hout : Outside before) (hx : x.origin = .quoted) : isAlphanumeric x.char = false := by
  have hhere := (enclosed_append.mp h).2.1 hx
  rw [hout] at hhere
  simpa using hhere

/-- Names stay whole; outside strings nothing runs together that is not one name, and no name is
called unasked, but for the letters of strings that are read outside strings; and none are where no
backslash is left before a string. -/
theorem names_unmixed_iff (hlegible : ∀ n ∈ nodes, Legible n) (h : write nodes = .ok text) :
    ∃ glyphs, writeGlyphs nodes = .ok glyphs ∧ glyphText glyphs = text ∧
      (∀ g ∈ glyphs, Spelled nodes g) ∧
      (∀ before after, glyphs = before ++ after → Continues before.getLast? after.head?) ∧
      (∀ before x y after, glyphs = before ++ x :: y :: after →
        (x.origin ≠ .quoted ∨ y.origin ≠ .quoted) → Apart x y) ∧
      (Unmixed glyphs ↔ ∀ before x y after, glyphs = before ++ x :: y :: after → Outside before →
        x.origin = .quoted → y.origin = .quoted → fuses x.char y.char = false) ∧
      ((∀ place held, Reaches nodes {} place held → Sound place held) → Unmixed glyphs) := by
  have hkept := (kept_settled (Reaches nodes {})).and ((kept_spelled nodes).and (kept_entire _))
  obtain ⟨glyphs, hwritten, htext, hsettled, hspelled, hentire⟩ :=
    hkept.exists_glyphs h hlegible fun place held hreach => hreach
  have hwhole (before after : List Glyph) (heq : glyphs = before ++ after) :
      Continues before.getLast? after.head? := by
    rw [heq] at hentire
    have hhere := hentire.continues
    rwa [Option.or_none] at hhere
  have hapart (before : List Glyph) (x y : Glyph) (after : List Glyph)
      (heq : glyphs = before ++ x :: y :: after)
      (hquoted : x.origin = .quoted → y.origin = .quoted → fuses x.char y.char = false) :
      Apart x y := by
    rw [heq] at hsettled hspelled
    exact hsettled.meets.apart (hspelled x (by simp)) (hspelled y (by simp)) hlegible hquoted
  have hiff : Unmixed glyphs ↔ ∀ before x y after, glyphs = before ++ x :: y :: after →
      Outside before → x.origin = .quoted → y.origin = .quoted →
        fuses x.char y.char = false := by
    refine ⟨fun hunmixed before x y after heq hout hx hy => ?_,
      fun hquoted before x y after heq hout => hapart before x y after heq
        (hquoted before x y after heq hout)⟩
    by_contra hfuses
    obtain ⟨word, place, hname, -⟩ :=
      (hunmixed before x y after heq hout).1 (by simpa using hfuses)
    rw [hx] at hname
    cases hname
  refine ⟨glyphs, hwritten, htext, hspelled, hwhole, fun before x y after heq hnot => ?_, hiff,
    fun hsound => hiff.mpr fun before x y after heq hout hx _ => ?_⟩
  · exact hapart before x y after heq fun hx hy => absurd hy (hnot.resolve_left (not_not.mpr hx))
  · obtain ⟨again, hagain, -, -, henclosed⟩ := kept_enclosed.exists_glyphs h hlegible
      fun place held hreach => ⟨hreach.legible hlegible, hsound place held hreach⟩
    cases hwritten.symm.trans hagain
    rw [heq] at henclosed
    have hsign := henclosed.outside hout hx
    by_contra hfuses
    have hfuses : fuses x.char y.char = true := by simpa using hfuses
    rw [(isAlphanumeric_of_fuses hfuses).1] at hsign
    cases hsign

/-- Letters are kept apart outside a string and stand together inside it. -/
theorem names_unmixed_string :
    (∀ n ∈ [.chars ['a', 'b'], .command "text" "\\text".toList
        [.group '\x7b' [.chars ['c', 'd']]]], Legible n) ∧
      write [.chars ['a', 'b'], .command "text" "\\text".toList
        [.group '\x7b' [.chars ['c', 'd']]]] = .ok "a b \"cd\"".toList ∧
      ∃ glyphs, glyphText glyphs = "a b \"cd\"".toList ∧ Unmixed glyphs := by
  have hlegible : ∀ n ∈ [Node.chars ['a', 'b'], .command "text" "\\text".toList
      [.group '\x7b' [.chars ['c', 'd']]]], Legible n := by
    refine List.forall_mem_cons.mpr ⟨.chars (by decide), List.forall_mem_singleton.mpr ?_⟩
    have hname : "text".toList.all Text.isLetter = true := by decide
    refine .command _ (.word (List.all_eq_true.mp hname)) fun _ =>
      List.forall_mem_singleton.mpr (.group _ ?_)
    exact List.forall_mem_singleton.mpr (.chars (by decide))
  have hform : form "text" [.group '\x7b' [.chars ['c', 'd']]] [] =
      .ok (.ready " \"cd\" ".toList, []) := by rfl
  have hwrite : write [.chars ['a', 'b'], .command "text" "\\text".toList
      [.group '\x7b' [.chars ['c', 'd']]]] = .ok "a b \"cd\"".toList := by
    rw [write, writeAfter_of_turn (.chars _ _), writeAfter_of_turn (.ready _ hform), writeAfter]
    exact congrArg Except.ok (by decide)
  refine ⟨hlegible, hwrite, ?_⟩
  obtain ⟨glyphs, -, htext, -, -, -, -, hunmixed⟩ := names_unmixed_iff hlegible hwrite
  refine ⟨glyphs, htext, hunmixed fun place held hreach => ?_⟩
  rcases reaches_chars hreach with ⟨rfl, rfl⟩ | hreach
  · refine sound_of_tidy rfl ?_ (by rintro _ _ _ ⟨⟩)
    rintro _ _ ⟨⟩
    decide
  cases hreach with
  | here nodes out =>
    refine sound_of_tidy (by decide) (by rintro _ _ ⟨⟩) fun source arguments rest heq => ?_
    exact absurd (Node.command.inj (List.cons.inj heq).1).1 (by decide)
  | inner out hinner hreach =>
    cases hinner with
    | operand _ hform' hf =>
      cases hform.symm.trans hform'
      cases hf
  | later hturn hreach =>
    cases hturn with
    | ready _ hform' =>
      cases hform.symm.trans hform'
      exact sound_of_reaches_nil hreach
    | application _ hform' hf =>
      cases hform.symm.trans hform'
      cases hf

/-- A line break in braces comes to a bare backslash, which takes the quotation mark of the string
behind it along. -/
theorem names_mixed_behind_backslash :
    convert "\x7b\\\\\x7d\x7b\\text\x7bab\x7d\x7d" = .ok "\\\"ab\"" ∧
      ∃ nodes glyphs, Latex.read "\x7b\\\\\x7d\x7b\\text\x7bab\x7d\x7d".toList =
          some (nodes, []) ∧
        writeGlyphs nodes = .ok glyphs ∧ glyphText glyphs = "\\\"ab\"".toList ∧
          ¬ Unmixed glyphs := by
  have hread : Latex.read "\x7b\\\\\x7d\x7b\\text\x7bab\x7d\x7d".toList = some
      ([.group '\x7b' [.command "\\" "\\\\".toList []], .group '\x7b' [.command "text"
        "\\text\x7bab\x7d".toList [.group '\x7b' [.chars ['a', 'b']]]]], []) := by rfl
  have hbreak : form "\\" [] [] = .ok (.ready (spaced " \\ "), []) := by rfl
  have htext : form "text" [.group '\x7b' [.chars ['a', 'b']]] [] =
      .ok (.ready " \"ab\" ".toList, []) := by rfl
  have hconvert : convert "\x7b\\\\\x7d\x7b\\text\x7bab\x7d\x7d" = .ok "\\\"ab\"" := by
    have hfirst : write [.command "\\" "\\\\".toList []] = .ok ['\\'] := by
      rw [write, writeAfter_of_turn (.ready _ hbreak), writeAfter]
      exact congrArg Except.ok (by decide)
    have hsecond : write [.command "text" "\\text\x7bab\x7d".toList
        [.group '\x7b' [.chars ['a', 'b']]]] = .ok "\"ab\"".toList := by
      rw [write, writeAfter_of_turn (.ready _ htext), writeAfter]
      exact congrArg Except.ok (by decide)
    have hwrite : write [.group '\x7b' [.command "\\" "\\\\".toList []], .group '\x7b'
        [.command "text" "\\text\x7bab\x7d".toList [.group '\x7b' [.chars ['a', 'b']]]]] =
          .ok "\\\"ab\"".toList := by
      rw [write, writeAfter_of_turn (.group _ _ hfirst), writeAfter_of_turn (.group _ _ hsecond),
        writeAfter]
      exact congrArg Except.ok (by decide)
    exact convert_of_read (by decide) hread hwrite
  refine ⟨hconvert, _, ⟨'\\', .name [' ', '\\', ' '] 1⟩ :: quotedGlyphs "\"ab\"".toList, hread, ?_,
    by decide, fun hunmixed => ?_⟩
  · have hfirst : writeGlyphs [.command "\\" "\\\\".toList []] =
        .ok [⟨'\\', .name [' ', '\\', ' '] 1⟩] := by
      rw [writeGlyphs, writeGlyphsAfter_ready _ hbreak, writeGlyphsAfter]
      exact congrArg Except.ok (by decide)
    have hsecond : writeGlyphs [.command "text" "\\text\x7bab\x7d".toList
        [.group '\x7b' [.chars ['a', 'b']]]] = .ok (quotedGlyphs "\"ab\"".toList) := by
      rw [writeGlyphs, writeGlyphsAfter_ready _ htext, writeGlyphsAfter]
      exact congrArg Except.ok (by decide)
    rw [writeGlyphs, writeGlyphsAfter, hfirst]
    change (writeGlyphsAfter _ _).map _ = _
    rw [writeGlyphsAfter, hsecond]
    change (writeGlyphsAfter _ _).map _ = _
    rw [writeGlyphsAfter]
    exact congrArg Except.ok (by decide)
  · obtain ⟨word, place, hname, -⟩ := (hunmixed [⟨'\\', .name [' ', '\\', ' '] 1⟩, ⟨'"', .quoted⟩]
      ⟨'a', .quoted⟩ ⟨'b', .quoted⟩ [⟨'"', .quoted⟩] rfl rfl).1 (by decide)
    cases hname

end Apart

end Typeset.Math
