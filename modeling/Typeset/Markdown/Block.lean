import Typeset.Markdown.Container
import Typeset.Markdown.Table

/-! The blocks of a document, read line by line. -/

namespace Typeset.Markdown

/-- A block of a document, with its text still to be read. -/
inductive Block
  | blank
  | paragraph (text : List Char)
  | heading (level : Nat) (text : List Char)
  | rule
  | code (info raw : List Char)
  | html (raw : List Char)
  | math (raw : List Char)
  | table (content : Table)
  /-- Where a label leads. Nothing is shown of it. -/
  | definition (link : LinkTarget)
  | quote (children : List Block)
  /-- A list, the number it starts with if it is numbered, and how many containers it is in. -/
  | list (start : Option Nat) (depth : Nat) (items : List (List Block))

/-- Where blocks stand: in how many containers, and which of them may be opened here. -/
structure Place where
  depth : Nat := 0
  quotes : Bool := true
  lists : Bool := true

/-- How many containers may be in one another before one of the kind opens no other. -/
def containerLimit : Nat := 20

/-- The place inside a quote. -/
def Place.inQuote (place : Place) : Place :=
  ⟨place.depth + 1, place.depth + 1 < containerLimit, true⟩

/-- The place inside a list. -/
def Place.inList (place : Place) : Place :=
  ⟨place.depth + 1, true, place.depth + 1 < containerLimit⟩

/-- What a line turns out to be. -/
inductive Step
  /-- It and the next so many lines are text. -/
  | text (more : Nat)
  /-- It makes a heading of the paragraph before it. -/
  | underline (level : Nat)
  /-- It begins a block, and these lines follow the block. -/
  | block (found : Block) (rest : List Line)

/-- Lines as text, each with its ending. -/
def textOf (lines : List Line) : List Char := lines.flatMap fun line => line.text ++ ['\n']

namespace Step

/-- Code between fences. It is shown without the indentation of the first fence. -/
def fenced (fence : Line.Fence) (rest : List Line) : Step :=
  if fence.opens then
    let body := rest.takeWhile fun line => !fence.closedBy line.text
    let raw := body.flatMap fun line => Line.dropSpaces fence.indent line.text ++ ['\n']
    .block (.code (Text.trim Text.isBlank (unescape fence.info)) raw) (rest.drop (body.length + 1))
  else .text 0

/-- Code behind an indentation. Blank lines in it count, but not those around it. -/
def indented (lines : List Line) : Step :=
  let body := lines.takeWhile fun line => Line.isIndented line.text || Line.isBlank line.text
  let raw := body.flatMap fun line => Line.dropSpaces 4 (Line.fillTab 4 line.text) ++ ['\n']
  .block (.code [] (Text.trim (· == '\n') raw)) (lines.drop body.length)

/-- A formula on lines between double dollar signs. The second ones are not indented. -/
def formula? (rest : List Line) : Option Step :=
  let body := rest.take 1 ++ (rest.drop 1).takeWhile fun line => !Line.isDollars 0 line.text
  if body.length < rest.length then
    let raw := List.intercalate ['\n'] (body.map Line.text)
    some (.block (.math raw) (rest.drop (body.length + 1)))
  else none

/-- A definition of a label, which may go on over several lines. It cannot interrupt a
paragraph. -/
def definition? (paragraph : Bool) (line : Line) (rest : List Line) : Option Step :=
  match Line.body? 3 line.text with
  | some ('[' :: first) =>
    match label? (first ++ '\n' :: textOf rest) with
    | some (label, ':' :: after) =>
      let key := labelKey label
      let found := if paragraph || key.isEmpty then none else definitionTarget? after
      some <| match found with
        | some (target, after) =>
          .block (.definition ⟨key, target⟩) (rest.drop (rest.length - after.count '\n'))
        | none => .text 0
    | _ => none
  | _ => none

/-- HTML from a line to where its kind ends. -/
def html? (paragraph : Bool) (line : Line) (rest : List Line) : Option Step :=
  if !Html.beginsBlock line.text then none
  else some <| match Html.block? line.text with
    | some (extent, interrupts) =>
      if paragraph && !interrupts then .text 0
      else
        let body := match extent with
          | .blank => rest.takeWhile fun line => !Line.isBlank line.text
          | .line mark first =>
            if (Text.cut? mark first).isSome then []
            else
              let before := rest.takeWhile fun line => (Text.cut? mark line.text).isNone
              rest.take (before.length + 1)
        .block (.html (textOf (line :: body))) (rest.drop body.length)
    | none => .text 0

/-- A table. -/
def table? (line : Line) (rest : List Line) : Option Step :=
  match Table.barred? line.text with
  | some head => some <| match Table.ofBarred head rest with
    | .ok (table, rest) => .block (.table table) rest
    | .error lines => .text (lines - 1)
  | none => (Table.open? line.text).map fun head =>
    match Table.ofOpen? head rest with
    | some (table, rest) => .block (.table table) rest
    | none => .text 0

end Step

/-- A quote from its first line on. -/
def quote (nested : Place → List Line → List Block) (place : Place) (first : List Char)
    (lazy : Bool) (rest : List Line) : Step :=
  let extent := Quote.extent first lazy rest
  .block (.quote (nested place.inQuote extent.inner)) extent.rest

/-- A list from the first line of its first item on. -/
def list (nested : Place → List Line → List Block) (place : Place) (item : Line.Item)
    (lazy : Bool) (rest : List Line) : Step :=
  let (items, rest) := Item.list item lazy rest
  let start := if item.isOrdered then some item.number else none
  .block (.list start place.depth (items.map (nested place.inList))) rest

/-- What a line turns out to be: the first kind of block that it looks like decides. Formulas and
tables stand in no container. -/
def step (nested : Place → List Line → List Block) (place : Place) (paragraph : Bool)
    (line : Line) (rest : List Line) : Step :=
  let text := line.text
  let top := place.depth = 0
  let rule? : Option Step := if Line.isRule 3 text then some (.block .rule rest) else none
  let list? : Option Step := (Line.item? 3 1 text).map fun item =>
    if paragraph && item.isTimid then .text 0 else list nested place item line.lazy rest
  let kinds : List (Unit → Option Step) := [
    fun _ => (Line.fence? 3 text).map (Step.fenced · rest),
    fun _ => if Line.isIndentedCode text then
      some (if paragraph then .text 0 else Step.indented (line :: rest)) else none,
    fun _ => (Line.heading? 3 text).map fun (level, text) => .block (.heading level text) rest,
    fun _ => (Line.underline? text).map fun level =>
      if paragraph && !line.lazy then .underline level
      else (rule?.orElse fun _ => list?).getD (.text 0),
    fun _ => rule?,
    fun _ => if place.quotes then
      (Line.quoted? 3 text).map fun first => quote nested place first line.lazy rest else none,
    fun _ => if top then
      (Line.formula? text).map fun raw => .block (.math raw) rest else none,
    fun _ => if top && Line.isDollars 3 text then Step.formula? rest else none,
    fun _ => if place.lists then list? else none,
    fun _ => Step.definition? paragraph line rest,
    fun _ => Step.html? paragraph line rest,
    fun _ => if Line.isBlank text then some (.block .blank rest) else none,
    fun _ => if top then Step.table? line rest else none]
  (kinds.findSome? fun kind => kind ()).getD (.text 0)

/-- The paragraph that lines make up, if there are any. -/
def paragraphOf (lines : List Line) : List Block :=
  if lines.isEmpty then [] else [.paragraph (textOf lines)]

/-- The blocks that lines make up at one place. `held` are lines of a paragraph, latest first. -/
def blocksOf (nested : Place → List Line → List Block) (place : Place) (held : List Line)
    (lines : List Line) : List Block :=
  match lines with
  | [] => paragraphOf held.reverse
  | line :: rest =>
    match step nested place (!held.isEmpty) line rest with
    | .text more =>
      blocksOf nested place ((rest.take more).reverse ++ line :: held) (rest.drop more)
    | .underline level =>
      .heading level (textOf held.reverse) :: blocksOf nested place [] rest
    | .block found after =>
      if after.length ≤ rest.length then
        paragraphOf held.reverse ++ found :: blocksOf nested place [] after
      else []
termination_by lines.length
decreasing_by
  · exact Nat.lt_succ_of_le (List.drop_sublist more rest).length_le
  · exact Nat.lt_succ_self _
  · exact Nat.lt_succ_of_le ‹_›

/-- The blocks that lines make up, with containers inside containers down to a depth. -/
def readBlocks : Nat → Place → List Line → List Block
  | 0, _, _ => []
  | depth + 1, place, lines => blocksOf (readBlocks depth) place [] lines

end Typeset.Markdown
