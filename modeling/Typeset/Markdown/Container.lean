import Typeset.Markdown.Line

/-! How far quotes and list items reach, and the lines inside them. -/

namespace Typeset.Markdown

/-- The lines of a quote or item, and the lines after it. -/
structure Extent where
  inner : List Line
  rest : List Line

/-- An extent with a line before it. -/
def Extent.cons (line : Line) (e : Extent) : Extent := { e with inner := line :: e.inner }

namespace Quote

/-- What a quote shows of what follows its mark. -/
def content (rest : List Char) : List Char := Line.dropSpaces 1 (Line.fillTab 3 rest)

/-- Whether a line without a mark ends a quote. -/
def isEndedBy (text : List Char) : Bool :=
  Line.isBlank text || Line.isRule 3 text || (Line.fence? 3 text).any Line.Fence.opens ||
    (Line.item? 3 1 text).isSome || ((Html.block? text).map Prod.snd).getD false

/-- The lines of a quote after its first. Lines without a mark go on with a paragraph, unless the
quote shows a blank line last, or began with something that no such line can follow. -/
def following (strict blank : Bool) : List Line → Extent
  | [] => ⟨[], []⟩
  | line :: rest =>
    match Line.quoted? 3 line.text with
    | some marked =>
      (following strict (Line.isBlank (content marked)) rest).cons
        { line with text := Line.widenTab (content marked) }
    | none =>
      if strict || blank || isEndedBy line.text then ⟨[], line :: rest⟩
      else (following strict false rest).cons
        ⟨Line.widenTab (Line.fillTab 3 line.text), true⟩

/-- A quote, from what follows the mark on its first line. -/
def extent (first : List Char) (lazy : Bool) (rest : List Line) : Extent :=
  let first := content first
  let strict := Line.isBlank first || Line.isIndentedCode first || (Line.fence? 3 first).isSome
  (following strict false rest).cons ⟨Line.widenTab first, lazy⟩

end Quote

namespace Item

open Line (Item)

/-- What follows the marker of an item, with tabs as spaces. -/
def opening (item : Item) : List Char := Line.widenTab (Line.fillTab 3 item.rest)

/-- How far the lines of an item are indented: as its first line is, but if that is empty or code,
only one space further than the marker. -/
def indentation (item : Item) : Nat :=
  let text := opening item
  let spaces := (text.takeWhile (· == ' ')).length
  if text.all Text.isBlank || 5 ≤ spaces then item.width + 1 else item.width + spaces

/-- The first line of an item, unless it is empty. -/
def firstLine (item : Item) (lazy : Bool) : List Line :=
  let text := opening item
  if text.all Text.isBlank then []
  else [⟨text.drop (indentation item - item.width), lazy⟩]

/-- How far in a line may be to end an item. -/
def reach (item : Item) : Nat := min item.width 3

/-- The next item of the same list, on a line of its own. -/
def next? (item : Item) (text : List Char) : Option Item :=
  if Line.isRule (reach item) text then none
  else (Line.item? (reach item) 0 text).filter fun next => next.mark == item.mark

/-- Whether a line that is not indented like the item ends it. -/
def isEndedBy (item : Item) (text : List Char) : Bool :=
  let reach := reach item
  Line.isRule reach text || (next? item text).isSome ||
    (Line.fence? reach text).any Line.Fence.opens || (Line.heading? reach text).isSome ||
    (Line.quoted? reach text).isSome ||
    ((Line.body? reach text).isSome && ((Html.block? text).map Prod.snd).getD false) ||
    (Line.item? reach 1 text).isSome

/-- The lines of an item after its first, and the lines after it. `started` says that the item holds
something already, and `blank` that a blank line was last. A line that is not indented like the item
goes on with a paragraph, unless a blank line precedes it. -/
def following (item : Item) (started blank : Bool) : List Line → Extent
  | [] => ⟨[], []⟩
  | line :: rest =>
    let text := Line.fillTab 4 line.text
    let indented := Text.startsWith (List.replicate (indentation item) ' ') text
    if Line.isBlank line.text then (following item started true rest).cons { line with text := [] }
    else if indented && blank && !started then ⟨[], line :: rest⟩
    else if indented then
      (following item true false rest).cons
        { line with text := Line.widenTab (text.drop (indentation item)) }
    else if blank || isEndedBy item line.text then ⟨[], line :: rest⟩
    else (following item true false rest).cons { line with text }

/-- Lines without the blank ones at the end. Where there are only blank ones, one of them stays. -/
def withoutBlankEnd (lines : List Line) : List Line :=
  let kept := (lines.reverse.dropWhile fun line => line.text.all Text.isBlank).reverse
  if kept.isEmpty then lines.take 1 else kept

/-- An item, from its first line on. -/
def extent (item : Item) (lazy : Bool) (rest : List Line) : Extent :=
  let first := firstLine item lazy
  let after := following item (!first.isEmpty) false rest
  { after with inner := withoutBlankEnd (first ++ after.inner) }

/-- The items of a list, and the lines after it. The list goes on where the line after an item
begins another one, unless the item was left for being empty. -/
def list (item : Item) (lazy : Bool) (rest : List Line) : List (List Line) × List Line :=
  let here := extent item lazy rest
  match here.rest with
  | [] => ([here.inner], [])
  | line :: more =>
    let indented := Text.startsWith (List.replicate (indentation item) ' ')
      (Line.fillTab 4 line.text)
    match if indented then none else next? item line.text with
    | some next =>
      if more.length < rest.length then
        let (items, after) := list next line.lazy more
        (here.inner :: items, after)
      else ([here.inner], line :: more)
    | none => ([here.inner], line :: more)
termination_by rest.length

end Item

end Typeset.Markdown
