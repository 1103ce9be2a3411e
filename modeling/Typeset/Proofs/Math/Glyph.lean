import Typeset.Proofs.Math.Call
import Typeset.Proofs.Math.Legible
import Typeset.Proofs.Math.Sign

/-! The Typst form of a formula with the origin of each character. The writer is followed step by
step on characters that carry their origin; without the origins, that is what is written. -/

namespace Typeset.Math

open Latex (Node Legible)
open Text (isBlank trim trimRight)
open Failure (exists_of_bind)

/-- Where a character of the Typst form comes from. -/
inductive Origin
  /-- A character of the LaTeX, and the one behind it in its run of characters. -/
  | data (next : Option Char)
  /-- The character of a name at a place in it. -/
  | name (word : List Char) (place : Nat)
  /-- The parenthesis that opens a call. -/
  | opening
  /-- A string, with its quotation marks and what is put around them. -/
  | quoted
  /-- White space, separators and signs. -/
  | filling
  deriving DecidableEq, Repr

/-- A character with its origin. -/
structure Glyph where
  char : Char
  origin : Origin
  deriving DecidableEq, Repr

/-- Glyphs without their origins. -/
def glyphText (glyphs : List Glyph) : List Char := glyphs.map Glyph.char

/-- Characters that are neither LaTeX nor a name. -/
def filling (cs : List Char) : List Glyph := cs.map fun c => ⟨c, .filling⟩

/-- A string with its quotation marks, and what is put around them. -/
def quotedGlyphs (cs : List Char) : List Glyph := cs.map fun c => ⟨c, .quoted⟩

/-- The end of a name from a place on. -/
def nameFrom (word : List Char) : Nat → List Char → List Glyph
  | _, [] => []
  | place, c :: cs => ⟨c, .name word place⟩ :: nameFrom word (place + 1) cs

/-- A name. -/
def nameGlyphs (word : List Char) : List Glyph := nameFrom word 0 word

/-- The name of a function and the parenthesis behind it. -/
def callGlyphs (word : List Char) : List Glyph := nameGlyphs word ++ [⟨'(', .opening⟩]

/-- Plain characters, with a backslash before those that would not mean themselves and a blank
between those that would be read as one name. -/
def dataGlyphs : List Char → List Glyph
  | [] => []
  | c :: rest =>
    (if c == '"' || c == '/' then [⟨'\\', .filling⟩] else []) ++
      ⟨c, .data rest.head?⟩ :: (filling (if rest.head?.any (fuses c) then [' '] else []) ++
        dataGlyphs rest)

/-- Ready text of a command: a name between blanks, or a string, which may be the argument of a
call. -/
def readyGlyphs (command : String) (text : List Char) : List Glyph :=
  match role command with
  | .name word => filling [' '] ++ nameGlyphs word.toList ++ filling [' ']
  | .text before _ =>
    let word := before.toList.takeWhile Char.isAlpha
    (if word.isEmpty then [] else callGlyphs word) ++
      quotedGlyphs (text.drop (if word.isEmpty then 0 else word.length + 1))
  | _ => filling text

/-- Texts with another text between them. -/
def joinedGlyphs (between : String) (texts : List (List Glyph)) : List Glyph :=
  (texts.intersperse (filling between.toList)).flatten

/-- A function applied to arguments. -/
def appliedGlyphs (function : String) (texts : List (List Glyph)) : List Glyph :=
  callGlyphs function.toList ++ joinedGlyphs ", " texts ++ filling [')']

/-- What a matrix begins with: a name for its delimiters, or a string. -/
def openingGlyphs : Delimiters → List Glyph
  | .usual => callGlyphs "mat".toList
  | .given text =>
    callGlyphs "mat".toList ++ nameGlyphs "delim".toList ++ filling ": ".toList ++
      (if text = "#none" then filling ['#'] ++ nameGlyphs "none".toList
        else quotedGlyphs text.toList) ++ filling ", ".toList

/-- An environment out of its cells. -/
def layoutGlyphs (layout : Layout) (cells : List (List (List Glyph))) : List Glyph :=
  let rows := cells.filter fun row => row.any fun cell => !cell.isEmpty
  match layout with
  | .matrix delimiters =>
    openingGlyphs delimiters ++ joinedGlyphs "; " (rows.map (joinedGlyphs ", ")) ++ filling [')']
  | .cases =>
    callGlyphs "cases".toList ++ joinedGlyphs ", " (rows.map (joinedGlyphs " & ")) ++ filling [')']
  | .lines => joinedGlyphs " \\ " (rows.map (joinedGlyphs " & "))

/-- Whether a glyph is white space. -/
def Glyph.isBlank (g : Glyph) : Bool := Text.isBlank g.char

/-- Glyphs without the white space around them. -/
def trimGlyphs (glyphs : List Glyph) : List Glyph :=
  (glyphs.dropWhile Glyph.isBlank).rdropWhile Glyph.isBlank

/-- Glyphs with every run of white space made one blank. -/
def squeezeGlyphs : List Glyph → List Glyph
  | [] => []
  | g :: rest =>
    if g.isBlank then
      if (squeezeGlyphs rest).head?.any (·.char == ' ') then squeezeGlyphs rest
      else ⟨' ', .filling⟩ :: squeezeGlyphs rest
    else g :: squeezeGlyphs rest

/-- The pieces set so far, the last one first. -/
structure Draft where
  reversed : List (List Glyph) := []

/-- The pieces of a draft without the origins. -/
def Draft.pieces (out : Draft) : Pieces := ⟨out.reversed.map glyphText⟩

/-- The pieces of a draft one after the other. -/
def Draft.whole (out : Draft) : List Glyph := out.reversed.reverse.flatten

/-- One more piece. -/
def Draft.add (out : Draft) (piece : List Glyph) : Draft :=
  if piece.isEmpty then out
  else match out.reversed with
    | [] => ⟨[piece]⟩
    | before :: earlier =>
      let (before, piece) :=
        if startsScript (glyphText piece) then
          (before.rdropWhile Glyph.isBlank, piece.dropWhile Glyph.isBlank)
        else (before, piece)
      ⟨(if runsInto (glyphText before) (glyphText piece) then ⟨' ', .filling⟩ :: piece
          else piece) :: before :: earlier⟩

/-- What is put down for a piece that is an operand. -/
def Draft.operandGlyphs (out : Draft) (piece : List Glyph) : List Glyph :=
  if out.pieces.expectsOperand then
    match trimGlyphs piece with
    | [g] => [g]
    | operand => filling ['('] ++ operand ++ filling [')']
  else piece

/-- One more piece as a single operand. -/
def Draft.attach (out : Draft) (piece : List Glyph) : Draft := out.add (out.operandGlyphs piece)

/-- The pieces as one text. -/
def Draft.text (out : Draft) : List Glyph := trimGlyphs (squeezeGlyphs out.whole)

mutual

/-- Nodes after the pieces before them, with the origin of each character. -/
def writeGlyphsAfter : List Node → Draft → Except Obstacle Draft
  | [], out => .ok out
  | .chars text :: rest, out => writeGlyphsAfter rest (out.add (dataGlyphs text))
  | .comment _ :: rest, out => writeGlyphsAfter rest out
  | .special source :: rest, out =>
    writeGlyphsAfter rest (out.add (filling (if source = ['~'] then [' '] else source)))
  | .group _ body :: rest, out => do writeGlyphsAfter rest (out.attach (← writeGlyphs body))
  | .math _ body :: rest, out => do writeGlyphsAfter rest (out.attach (← writeGlyphs body))
  | .environment name _ body :: rest, out => do
    match layout? name with
    | none => throw (.unsupportedEnvironment name)
    | some layout =>
      let cells ← (rows (layoutBody name body)).attach.mapM fun ⟨row, _⟩ =>
        row.attach.mapM fun ⟨cell, _⟩ => writeGlyphs cell
      writeGlyphsAfter rest (out.attach (layoutGlyphs layout cells))
  | .command name _ arguments :: rest, out => do
    match _h : form name arguments rest with
    | .error e => throw e
    | .ok (.ready text, rest) => writeGlyphsAfter rest (out.attach (readyGlyphs name text))
    | .ok (.unary function node, rest) =>
      let text ← writeGlyphs (inside node)
      writeGlyphsAfter rest (out.attach (appliedGlyphs function [text]))
    | .ok (.binary function first second, rest) =>
      let one ← writeGlyphs (inside first)
      let two ← writeGlyphs (inside second)
      writeGlyphsAfter rest (out.attach (appliedGlyphs function [one, two]))
    | .ok (.root index radicand, rest) =>
      let two ← writeGlyphs (inside radicand)
      let one ← writeGlyphs (inside index)
      writeGlyphsAfter rest (out.attach (appliedGlyphs "root" [one, two]))
termination_by nodes => 3 * sizeOf nodes
decreasing_by
  all_goals first
    | (simp only [List.cons.sizeOf_spec, Node.group.sizeOf_spec, Node.math.sizeOf_spec]
       omega)
    | (have hs := form_size _h
       have hi := sizeOf_inside_le
       simp only [Form.Below] at hs
       simp
       grind)
    | (have hs := sizeOf_cell_le ‹_› ‹_›
       have hb := sizeOf_layoutBody_le name body
       simp
       omega)

/-- Nodes by themselves, with the origin of each character. -/
def writeGlyphs (nodes : List Node) : Except Obstacle (List Glyph) :=
  (writeGlyphsAfter nodes {}).map Draft.text
termination_by 3 * sizeOf nodes + 1

end

section Text

variable {p q glyphs : List Glyph} {texts : List (List Glyph)}

@[simp] theorem glyphText_nil : glyphText [] = [] := rfl

@[simp] theorem glyphText_cons (g : Glyph) (p : List Glyph) :
    glyphText (g :: p) = g.char :: glyphText p := rfl

@[simp] theorem glyphText_append (p q : List Glyph) :
    glyphText (p ++ q) = glyphText p ++ glyphText q := List.map_append

@[simp] theorem glyphText_flatten (texts : List (List Glyph)) :
    glyphText texts.flatten = (texts.map glyphText).flatten := List.map_flatten

theorem glyphText_isEmpty (p : List Glyph) : (glyphText p).isEmpty = p.isEmpty := by
  cases p <;> rfl

@[simp] theorem glyphText_filling (cs : List Char) : glyphText (filling cs) = cs := by
  simp [glyphText, filling, Function.comp_def]

theorem glyphText_quoted (cs : List Char) :
    glyphText (quotedGlyphs cs) = cs := by
  simp [glyphText, quotedGlyphs, Function.comp_def]

@[simp] theorem glyphText_nameFrom (word : List Char) (place : Nat) (cs : List Char) :
    glyphText (nameFrom word place cs) = cs := by
  induction cs generalizing place with
  | nil => rfl
  | cons c cs ih => rw [nameFrom, glyphText_cons, ih]

@[simp] theorem glyphText_nameGlyphs (word : List Char) : glyphText (nameGlyphs word) = word :=
  glyphText_nameFrom word 0 word

@[simp] theorem glyphText_callGlyphs (word : List Char) :
    glyphText (callGlyphs word) = word ++ ['('] := by
  simp [callGlyphs]

theorem separate_cons (c : Char) (cs : List Char) :
    separate (c :: cs) = c :: ((if cs.head?.any (fuses c) then [' '] else []) ++ separate cs) := by
  cases cs with
  | nil => rfl
  | cons d cs =>
    rw [separate, List.head?_cons, Option.any_some]
    split <;> rfl

theorem fuses_sign_left {c : Char} (h : c.isAlphanum = false) (d : Char) : fuses c d = false := by
  obtain ⟨halpha, hdigit⟩ : c.isAlpha = false ∧ c.isDigit = false := Bool.or_eq_false_iff.mp h
  rw [fuses, halpha, hdigit, Bool.false_and, Bool.false_and, Bool.or_false]

theorem fuses_sign_right {d : Char} (h : d.isAlphanum = false) (c : Char) : fuses c d = false := by
  have halpha : d.isAlpha = false := (Bool.or_eq_false_iff.mp h).1
  rw [fuses, h, halpha, Bool.and_false, Bool.and_false, Bool.or_false]

theorem fuses_of_marked {c d : Char} (h : (d == '"' || d == '/') = true) : fuses c d = false := by
  simp only [Bool.or_eq_true, beq_iff_eq] at h
  rcases h with rfl | rfl
  · exact fuses_sign_right (by decide) c
  · exact fuses_sign_right (by decide) c

/-- Characters that have to be marked are kept apart from nothing. -/
theorem plain_cons (c : Char) (rest : List Char) :
    plain (c :: rest) = (if c == '"' || c == '/' then ['\\'] else []) ++
      c :: ((if rest.head?.any (fuses c) then [' '] else []) ++ plain rest) := by
  have hhead : (rest.flatMap fun c => if c == '"' || c == '/' then ['\\', c] else [c]).head?.any
      (fuses c) = rest.head?.any (fuses c) := by
    cases rest with
    | nil => rfl
    | cons d rest =>
      rw [List.flatMap_cons]
      split
      next hd =>
        have hslash : fuses c '\\' = false := fuses_sign_right (by decide) c
        simp [fuses_of_marked hd, hslash]
      next hd => rfl
  have hone :
      separate (c :: rest.flatMap fun c => if c == '"' || c == '/' then ['\\', c] else [c]) =
        c :: ((if rest.head?.any (fuses c) then [' '] else []) ++ plain rest) := by
    rw [separate_cons, hhead, plain]
  rw [plain, List.flatMap_cons]
  split
  next hc =>
    rw [List.cons_append, List.singleton_append, separate_cons, List.head?_cons, Option.any_some,
      fuses_sign_left (by decide), hone]
    rfl
  next hc => rw [List.singleton_append, hone, List.nil_append]

@[simp] theorem glyphText_dataGlyphs (text : List Char) :
    glyphText (dataGlyphs text) = plain text := by
  induction text with
  | nil => rfl
  | cons c rest ih =>
    rw [dataGlyphs, plain_cons, glyphText_append, glyphText_cons, glyphText_append,
      glyphText_filling, ih]
    split <;> rfl

theorem joinedGlyphs_singleton (between : String) (p : List Glyph) :
    joinedGlyphs between [p] = p := by
  rw [joinedGlyphs, List.intersperse_singleton, List.flatten_singleton]

theorem joinedGlyphs_cons_cons (between : String) (p q : List Glyph) (texts : List (List Glyph)) :
    joinedGlyphs between (p :: q :: texts) =
      p ++ (filling between.toList ++ joinedGlyphs between (q :: texts)) := by
  rw [joinedGlyphs, List.intersperse_cons_cons, List.flatten_cons, List.flatten_cons, joinedGlyphs]

@[simp] theorem glyphText_joinedGlyphs (between : String) (texts : List (List Glyph)) :
    glyphText (joinedGlyphs between texts) = joined between (texts.map glyphText) := by
  induction texts with
  | nil => rfl
  | cons p texts ih =>
    cases texts with
    | nil => rw [joinedGlyphs_singleton, List.map_singleton, joined_singleton]
    | cons q texts =>
      rw [List.map_cons] at ih
      rw [joinedGlyphs_cons_cons, List.map_cons, List.map_cons, joined_cons_cons,
        glyphText_append, glyphText_append, glyphText_filling, ih]

@[simp] theorem glyphText_appliedGlyphs (function : String) (texts : List (List Glyph)) :
    glyphText (appliedGlyphs function texts) = applied function (texts.map glyphText) := by
  simp [appliedGlyphs, applied]

theorem glyphText_openingGlyphs :
    ∀ row ∈ matrices, glyphText (openingGlyphs row.2) = row.2.opening := by
  decide

theorem glyphText_dropWhile (glyphs : List Glyph) :
    glyphText (glyphs.dropWhile Glyph.isBlank) = (glyphText glyphs).dropWhile isBlank :=
  List.dropWhile_map.symm

theorem glyphText_rdropWhile (glyphs : List Glyph) :
    glyphText (glyphs.rdropWhile Glyph.isBlank) = trimRight isBlank (glyphText glyphs) := by
  have hdrop := glyphText_dropWhile glyphs.reverse
  rw [glyphText, glyphText, List.map_reverse] at hdrop
  rw [List.rdropWhile, trimRight, glyphText, glyphText, List.map_reverse, hdrop]

theorem glyphText_trimGlyphs (glyphs : List Glyph) :
    glyphText (trimGlyphs glyphs) = trim isBlank (glyphText glyphs) := by
  rw [trimGlyphs, glyphText_rdropWhile, glyphText_dropWhile, trim]

theorem glyphText_squeezeGlyphs (glyphs : List Glyph) :
    glyphText (squeezeGlyphs glyphs) = squeeze (glyphText glyphs) := by
  induction glyphs with
  | nil => rfl
  | cons g rest ih =>
    rw [squeezeGlyphs, glyphText_cons]
    cases hg : g.isBlank with
    | false =>
      rw [squeeze_cons_of_solid hg, if_neg (by decide), glyphText_cons, ih]
    | true =>
      have hhead : (squeezeGlyphs rest).head?.any (·.char == ' ') = true ↔
          (squeeze (glyphText rest)).head? = some ' ' := by
        rw [← ih]
        cases squeezeGlyphs rest <;> simp
      rw [squeeze_cons_of_blank hg, if_pos rfl]
      simp only [hhead]
      split
      · exact ih
      · rw [glyphText_cons, ih]

end Text

section Draft

variable {out : Draft} {name : String} {arguments rest after : List Node} {text : List Char}

@[simp] theorem glyphText_whole (out : Draft) : glyphText out.whole = out.pieces.whole := by
  simp [Draft.whole, Draft.pieces, Pieces.whole]

theorem pieces_add (out : Draft) (piece : List Glyph) :
    (out.add piece).pieces = out.pieces.add (glyphText piece) := by
  obtain ⟨reversed⟩ := out
  rw [Draft.add, Pieces.add, glyphText_isEmpty]
  split
  · rfl
  cases reversed with
  | nil => rfl
  | cons before earlier =>
    simp only [Draft.pieces, List.map_cons]
    by_cases hscript : startsScript (glyphText piece) = true
    · simp only [if_pos hscript, glyphText_rdropWhile, glyphText_dropWhile]
      split
      · rw [glyphText_cons, glyphText_dropWhile]
      · rw [glyphText_dropWhile]
    · simp only [if_neg hscript]
      split
      · rw [glyphText_cons]
      · rfl

theorem glyphText_operandGlyphs (out : Draft) (piece : List Glyph) :
    glyphText (out.operandGlyphs piece) = out.pieces.operandText (glyphText piece) := by
  rw [Draft.operandGlyphs, Pieces.operandText]
  split
  · rw [← glyphText_trimGlyphs]
    rcases trimGlyphs piece with _ | ⟨g, _ | ⟨g', more⟩⟩
    · rfl
    · rfl
    · simp [filling]
  · rfl

theorem glyphText_text (out : Draft) : glyphText out.text = out.pieces.text := by
  rw [Draft.text, glyphText_trimGlyphs, glyphText_squeezeGlyphs, glyphText_whole,
    Pieces.text_eq]

/-- An operand stands as it is, without the blanks around it, or in parentheses. -/
theorem Draft.operandGlyphs_cases (out : Draft) (piece : List Glyph) :
    out.operandGlyphs piece = piece ∨ out.operandGlyphs piece = trimGlyphs piece ∨
      out.operandGlyphs piece = filling ['('] ++ trimGlyphs piece ++ filling [')'] := by
  rw [Draft.operandGlyphs]
  split
  · split
    next g hg => exact .inr (.inl hg.symm)
    next => exact .inr (.inr rfl)
  · exact .inl rfl

/-- What stands for a command whose text is ready: nothing, a name between blanks, or a string,
which `op` may be called with. -/
inductive Stands (command : String) : List Char → List Glyph → Prop
  | nothing : Stands command [] []
  | name {word : String} (hrole : role command = .name word) :
    Stands command (spaced word) (filling [' '] ++ nameGlyphs word.toList ++ filling [' '])
  | string (cs : List Char) :
    Stands command (" \"".toList ++ literalText cs ++ "\" ".toList)
      (quotedGlyphs (" \"".toList ++ literalText cs ++ "\" ".toList))
  | operator (cs : List Char) :
    Stands command ("op(\"".toList ++ literalText cs ++ "\")".toList)
      (callGlyphs "op".toList ++ quotedGlyphs ("\"".toList ++ literalText cs ++ "\")".toList))

theorem stands_readyGlyphs (h : form name arguments rest = .ok (.ready text, after)) :
    Stands name text (readyGlyphs name text) := by
  cases takes_of_form h with
  | silent hrole =>
    rw [readyGlyphs, hrole]
    exact .nothing
  | name hrole =>
    rw [readyGlyphs, hrole]
    exact .name hrole
  | @text _ _ node _ _ hrole =>
    have hspells := spells_role name
    rw [hrole] at hspells
    rw [readyGlyphs, hrole]
    cases hspells with
    | quoted => exact .string node.verbatim
    | operator => exact .operator node.verbatim

theorem glyphText_readyGlyphs (h : form name arguments rest = .ok (.ready text, after)) :
    glyphText (readyGlyphs name text) = text := by
  have hstands := stands_readyGlyphs h
  generalize readyGlyphs name text = glyphs at hstands ⊢
  cases hstands with
  | nothing => rfl
  | name hrole => simp [spaced]
  | string cs => exact glyphText_quoted _
  | operator cs =>
    rw [glyphText_append, glyphText_quoted]
    rfl

theorem glyphText_layoutGlyphs {layout : Layout} (h : layout? name = some layout)
    (cells : List (List (List Glyph))) :
    glyphText (layoutGlyphs layout cells) =
      layout.text (cells.map fun row => row.map glyphText) := by
  have hrows (between : String) :
      ((cells.filter fun row => row.any fun cell => !cell.isEmpty).map
        (joinedGlyphs between)).map glyphText =
      ((cells.map fun row => row.map glyphText).filter fun row =>
        row.any fun cell => !cell.isEmpty).map (joined between) := by
    have hany (row : List (List Glyph)) : ((row.map glyphText).any fun cell => !cell.isEmpty) =
        row.any fun cell => !cell.isEmpty := by
      simp [List.any_map, Function.comp_def, glyphText_isEmpty]
    rw [List.filter_map, List.map_map, List.map_map]
    simp [Function.comp_def, hany]
  cases layout with
  | matrix delimiters =>
    have hopening := glyphText_openingGlyphs _ (mem_matrices_of_layout? h)
    rw [layoutGlyphs, matrix_text, glyphText_append, glyphText_append, hopening,
      glyphText_joinedGlyphs, hrows, glyphText_filling]
  | cases =>
    rw [layoutGlyphs, cases_text, glyphText_append, glyphText_append, glyphText_callGlyphs,
      glyphText_joinedGlyphs, hrows, glyphText_filling]
    rfl
  | lines => rw [layoutGlyphs, lines_text, glyphText_joinedGlyphs, hrows]

end Draft

section Follow

variable {P : Draft → Prop} {Q : List Glyph → Prop} {known : List Node → Pieces → Prop}
  {nodes : List Node} {out done : Pieces} {text : List Char}

/-- What holds of everything that is put down, and of the pieces so far from the beginning on, in a
formula whose places are of some kind. -/
structure Kept (known : List Node → Pieces → Prop) (P : Draft → Prop) (Q : List Glyph → Prop) :
    Prop where
  empty : P {}
  text : ∀ {out}, P out → Q out.text
  add : ∀ {place move after out piece}, known place out.pieces → Turn place move after →
    glyphText piece = move.puts out.pieces → P out → Q piece → P (out.add piece)
  operand : ∀ {out : Draft} {piece}, Q piece → Q (out.operandGlyphs piece)
  data : ∀ {text rest held}, known (.chars text :: rest) held → Q (dataGlyphs text)
  special : ∀ source ∈ Latex.specials, Q (filling (if source = ['~'] then [' '] else source))
  ready : ∀ {name source text arguments rest after held},
    known (.command name source arguments :: rest) held →
      form name arguments rest = .ok (.ready text, after) → Q (readyGlyphs name text)
  applied : ∀ {function texts}, (function, texts.length) ∈ functions → (∀ text ∈ texts, Q text) →
    Q (appliedGlyphs function texts)
  layout : ∀ {name layout cells}, layout? name = some layout →
    (∀ row ∈ cells, ∀ cell ∈ row, Q cell) → Q (layoutGlyphs layout cells)

theorem Kept.and {P' : Draft → Prop} {Q' : List Glyph → Prop} (h : Kept known P Q)
    (h' : Kept known P' Q') :
    Kept known (fun out => P out ∧ P' out) fun glyphs => Q glyphs ∧ Q' glyphs where
  empty := ⟨h.empty, h'.empty⟩
  text hP := ⟨h.text hP.1, h'.text hP.2⟩
  add hplace hturn htext hP hQ :=
    ⟨h.add hplace hturn htext hP.1 hQ.1, h'.add hplace hturn htext hP.2 hQ.2⟩
  operand hQ := ⟨h.operand hQ.1, h'.operand hQ.2⟩
  data hplace := ⟨h.data hplace, h'.data hplace⟩
  special source hsource := ⟨h.special source hsource, h'.special source hsource⟩
  ready hplace hform := ⟨h.ready hplace hform, h'.ready hplace hform⟩
  applied hfunction hQ :=
    ⟨h.applied hfunction fun text htext => (hQ text htext).1,
      h'.applied hfunction fun text htext => (hQ text htext).2⟩
  layout hlayout hQ :=
    ⟨h.layout hlayout fun row hrow cell hcell => (hQ row hrow cell hcell).1,
      h'.layout hlayout fun row hrow cell hcell => (hQ row hrow cell hcell).2⟩

theorem writeGlyphsAfter_environment (name : String) (source : List Char) (body rest : List Node)
    (out : Draft) :
    writeGlyphsAfter (.environment name source body :: rest) out =
      match layout? name with
      | none => .error (.unsupportedEnvironment name)
      | some layout =>
        ((rows (layoutBody name body)).mapM fun row => row.mapM writeGlyphs) >>= fun cells =>
          writeGlyphsAfter rest (out.attach (layoutGlyphs layout cells)) := by
  rw [writeGlyphsAfter]
  cases layout? name with
  | none => rfl
  | some layout =>
    dsimp only
    simp only [mapM_attach]

theorem writeGlyphsAfter_application {name function : String} {arguments rest after : List Node}
    {operands : List Node} {f : Form} {texts : List (List Glyph)} (source : List Char)
    (hform : form name arguments rest = .ok (f, after))
    (hf : f.application? = some (function, operands))
    (htexts : operands.mapM (fun node => writeGlyphs (inside node)) = .ok texts) (out : Draft) :
    writeGlyphsAfter (.command name source arguments :: rest) out =
      writeGlyphsAfter after (out.attach (appliedGlyphs function texts)) := by
  have hall := forall₂_of_mapM htexts
  rw [writeGlyphsAfter]
  split
  next heq =>
    rw [hform] at heq
    cases heq
  next heq =>
    rw [hform] at heq
    cases heq
    cases hf
  next heq =>
    rw [hform] at heq
    cases heq
    cases hf
    obtain _ | ⟨hone, _ | _⟩ := hall
    rw [hone]
    rfl
  next heq =>
    rw [hform] at heq
    cases heq
    cases hf
    obtain _ | ⟨hone, _ | ⟨htwo, _ | _⟩⟩ := hall
    rw [hone, htwo]
    rfl
  next heq =>
    rw [hform] at heq
    cases heq
    cases hf
    obtain _ | ⟨hone, _ | ⟨htwo, _ | _⟩⟩ := hall
    rw [hone, htwo]
    rfl

theorem writeGlyphsAfter_ready {name : String} {arguments rest after : List Node}
    {text : List Char} (source : List Char)
    (hform : form name arguments rest = .ok (.ready text, after)) (out : Draft) :
    writeGlyphsAfter (.command name source arguments :: rest) out =
      writeGlyphsAfter after (out.attach (readyGlyphs name text)) := by
  rw [writeGlyphsAfter]
  split
  all_goals
    next heq =>
      rw [hform] at heq
      cases heq
      try rfl

/-- What is written comes with the origin of each character, and what is kept on the way holds of
it. -/
theorem Kept.exists_draft (hkept : Kept known P Q) (h : writeAfter nodes out = .ok done) :
    (∀ n ∈ nodes, Legible n) → (∀ place held, Reaches nodes out place held → known place held) →
      ∀ draft : Draft, draft.pieces = out → P draft →
        ∃ full, writeGlyphsAfter nodes draft = .ok full ∧ full.pieces = done ∧ P full := by
  refine writeAfter_induction (motive := fun nodes out done => (∀ n ∈ nodes, Legible n) →
    (∀ place held, Reaches nodes out place held → known place held) →
      ∀ draft : Draft, draft.pieces = out → P draft →
        ∃ full, writeGlyphsAfter nodes draft = .ok full ∧ full.pieces = done ∧ P full)
    (fun out _ _ draft hdraft hP => ⟨draft, by rw [writeGlyphsAfter], hdraft, hP⟩) ?_ h
  rintro nodes after move _ done hturn hinner ih hlegible hknown draft rfl hP
  have hhere := hknown nodes draft.pieces (.here nodes draft.pieces)
  have hafter (draft' : Draft) (heq : draft'.pieces = move.on draft.pieces) (hP' : P draft') :=
    ih (hturn.legible hlegible)
      (fun place held hreach => hknown place held (.later hturn hreach)) draft' heq hP'
  -- each turn puts the same down on both sides, and what is put down is kept
  have hadd {glyphs : List Glyph} (hglyphs : glyphText glyphs = move.puts draft.pieces)
      (hQ : Q glyphs) :
      ∃ full, writeGlyphsAfter after (draft.add glyphs) = .ok full ∧ full.pieces = done ∧
        P full := by
    refine hafter _ ?_ (hkept.add hhere hturn hglyphs hP hQ)
    rw [pieces_add, hglyphs, move.on_eq]
  have hattach {text : List Char} {glyphs : List Glyph} (hmove : move = .attach text)
      (hglyphs : glyphText glyphs = text) (hQ : Q glyphs) :
      ∃ full, writeGlyphsAfter after (draft.attach glyphs) = .ok full ∧ full.pieces = done ∧
        P full := by
    refine hadd ?_ (hkept.operand hQ)
    rw [glyphText_operandGlyphs, hglyphs, hmove]
    rfl
  have htext {body : List Node} {text : List Char} (hbody : Inner nodes body)
      (hwrite : write body = .ok text) :
      ∃ glyphs, writeGlyphs body = .ok glyphs ∧ glyphText glyphs = text ∧ Q glyphs := by
    obtain ⟨written, hwritten, rfl⟩ := exists_of_write hwrite
    obtain ⟨full, hfull, rfl, hPfull⟩ := hinner hbody hwritten (hbody.legible hlegible)
      (fun place held hreach => hknown place held (.inner _ hbody hreach)) {} rfl hkept.empty
    refine ⟨full.text, ?_, glyphText_text full, hkept.text hPfull⟩
    rw [writeGlyphs, hfull]
    rfl
  cases hturn with
  | chars text rest =>
    rw [writeGlyphsAfter]
    exact hadd (glyphText_dataGlyphs text) (hkept.data hhere)
  | comment source rest =>
    rw [writeGlyphsAfter]
    exact hafter draft rfl hP
  | special source rest =>
    cases (List.forall_mem_cons.mp hlegible).1 with
    | special hsource =>
      rw [writeGlyphsAfter]
      exact hadd (glyphText_filling _) (hkept.special source hsource)
  | group opener rest hbody =>
    obtain ⟨glyphs, hglyphs, htext, hQ⟩ := htext (.group opener _ after) hbody
    rw [writeGlyphsAfter, hglyphs]
    exact hattach rfl htext hQ
  | math source rest hbody =>
    obtain ⟨glyphs, hglyphs, htext, hQ⟩ := htext (.math source _ after) hbody
    rw [writeGlyphsAfter, hglyphs]
    exact hattach rfl htext hQ
  | environment source rest hlayout hcells =>
    have hrows := (List.forall₂_and_left _ _).mpr ⟨fun row hrow => hrow, forall₂_of_mapM hcells⟩
    obtain ⟨cells, hwritten, htexts, hQ⟩ := exists_mapM
      (f := fun row => row.mapM writeGlyphs) (g := fun row => row.map glyphText)
      (Q := fun row => ∀ cell ∈ row, Q cell) (hrows.imp fun row texts ⟨hrow, htexts⟩ =>
        exists_mapM (((List.forall₂_and_left _ _).mpr
          ⟨fun cell hcell => hcell, forall₂_of_mapM htexts⟩).imp fun cell text ⟨hcell, hwrite⟩ =>
            htext (.cell _ source after hrow hcell) hwrite))
    rw [writeGlyphsAfter_environment, hlayout, hwritten]
    exact hattach rfl (by rw [glyphText_layoutGlyphs hlayout, htexts]) (hkept.layout hlayout hQ)
  | @ready source name arguments rest after text hform =>
    rw [writeGlyphsAfter_ready source hform]
    exact hattach rfl (glyphText_readyGlyphs hform)
      (hkept.ready hhere hform)
  | application source hform hf htexts =>
    obtain ⟨texts, hwritten, rfl, hQ⟩ := exists_mapM
      (f := fun node => writeGlyphs (inside node)) (g := glyphText) (Q := Q)
      (((List.forall₂_and_left _ _).mpr ⟨fun node hnode => hnode, forall₂_of_mapM htexts⟩).imp
        fun node text ⟨hnode, hwrite⟩ => htext (.operand source hform hf hnode) hwrite)
    have hlength := (forall₂_of_mapM hwritten).length_eq
    rw [writeGlyphsAfter_application source hform hf hwritten]
    exact hattach rfl (glyphText_appliedGlyphs _ texts)
      (hkept.applied (by rw [← hlength]; exact functions_of_form hform hf) hQ)

/-- A formula comes with the origin of each character, and what is kept on the way holds of it. -/
theorem Kept.exists_glyphs (hkept : Kept known P Q) (h : write nodes = .ok text)
    (hlegible : ∀ n ∈ nodes, Legible n)
    (hknown : ∀ place held, Reaches nodes {} place held → known place held) :
    ∃ glyphs, writeGlyphs nodes = .ok glyphs ∧ glyphText glyphs = text ∧ Q glyphs := by
  obtain ⟨done, hdone, rfl⟩ := exists_of_write h
  obtain ⟨full, hfull, rfl, hP⟩ := hkept.exists_draft hdone hlegible hknown {} rfl hkept.empty
  refine ⟨full.text, ?_, glyphText_text full, hkept.text hP⟩
  rw [writeGlyphs, hfull]
  rfl

end Follow

end Typeset.Math
