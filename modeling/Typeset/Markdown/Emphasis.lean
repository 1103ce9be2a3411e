import Typeset.Markdown.Inline
import Typeset.Text.Charset

/-! Emphasis: runs of asterisks or underscores, paired from left to right with the nearest run
before them that fits. -/

namespace Typeset.Markdown

/-- A run of asterisks or underscores. -/
structure Run where
  mark : Char
  /-- How many marks were written. -/
  length : Nat
  /-- How many of them no pair has used yet. -/
  free : Nat
  opens : Bool
  closes : Bool

/-- A part of a line while its emphasis is being read. -/
inductive Piece
  | plain (content : Inline)
  | run (marks : Run)

/-- A character that is neither white space nor a letter or digit. -/
def isSymbol (c : Char) : Bool := !Text.isBlank c && !Text.isAlphanumeric c

/-- A run between the characters around it, if there are any. A run opens where it leans on what
follows it, and closes where it leans on what precedes it; underscores inside a word do neither. -/
def Run.between (before : Option Char) (mark : Char) (length : Nat) (after : Option Char) : Run :=
  let blankBefore := before.all Text.isBlank
  let blankAfter := after.all Text.isBlank
  let symbolBefore := before.any isSymbol
  let symbolAfter := after.any isSymbol
  let leansRight := !blankAfter && (!symbolAfter || blankBefore || symbolBefore)
  let leansLeft := !blankBefore && (!symbolBefore || blankAfter || symbolAfter)
  let inWord := mark == '_'
  { mark, length
    free := length
    opens := leansRight && (!inWord || !leansLeft || symbolBefore)
    closes := leansLeft && (!inWord || !leansRight || symbolAfter) }

/-- The marks of a run that no pair has used, as text. -/
def Run.text (run : Run) : Inline := .text (List.replicate run.free run.mark)

/-- A piece as a part of the line: a run without a partner is text. -/
def Piece.toInline : Piece → Inline
  | .plain content => content
  | .run marks => marks.text

/-- Pieces as parts of the line. -/
def Piece.toInlines (pieces : List Piece) : List Inline := joinText (pieces.map Piece.toInline)

/-- Whether two runs can be a pair. If either could do both, their lengths must not add up to a
multiple of three, unless both are multiples of three. -/
def Run.pairs (opener closer : Run) : Bool :=
  let either := opener.closes || closer.opens
  let mismatched := (opener.length + closer.length) % 3 == 0 &&
    !(opener.length % 3 == 0 && closer.length % 3 == 0)
  opener.mark == closer.mark && opener.opens && !(either && mismatched)

/-- The nearest run that can be paired with a closing one: the pieces after it, the run, and the
pieces before it. The pieces come latest first. -/
def opener? (closer : Run) : List Piece → Option (List Piece × Run × List Piece)
  | [] => none
  | piece :: earlier =>
    let further := (opener? closer earlier).map fun (inner, opener, rest) =>
      (piece :: inner, opener, rest)
    match piece with
    | .run marks => if marks.pairs closer then some ([], marks, earlier) else further
    | .plain _ => further

/-- A run with some of its marks used, unless none is left. -/
def Run.less (run : Run) (used : Nat) : List Piece :=
  if used < run.free then [.run { run with free := run.free - used }] else []

/-- How many marks of either side a pair uses. Two make strong emphasis. -/
def pairWidth (opener closer : Run) : Nat := if 2 ≤ opener.free && 2 ≤ closer.free then 2 else 1

theorem pairWidth_pos (opener closer : Run) : 0 < pairWidth opener closer := by
  unfold pairWidth
  split <;> omega

/-- Pieces, latest first, after a run that may close emphasis. A run that finds no partner waits for
one, if it may open. -/
def close (closer : Run) (earlier : List Piece) : List Piece :=
  match if closer.closes then opener? closer earlier else none with
  | none => (if closer.opens then .run closer else .plain closer.text) :: earlier
  | some (inner, opener, rest) =>
    let used := pairWidth opener closer
    let pair := Inline.formatted (if used = 2 then .strong else .emphasis)
      (Piece.toInlines inner.reverse)
    let pieces := .plain pair :: opener.less used ++ rest
    if used < closer.free then close { closer with free := closer.free - used } pieces else pieces
termination_by closer.free
decreasing_by
  have := pairWidth_pos opener closer
  simp_wf
  omega

/-- The parts of a line, with emphasis read. -/
def readEmphasis (pieces : List Piece) : List Inline :=
  let step (earlier : List Piece) : Piece → List Piece
    | .plain content => .plain content :: earlier
    | .run marks => close marks earlier
  Piece.toInlines (pieces.foldl step []).reverse

end Typeset.Markdown
