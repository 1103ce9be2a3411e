import Typeset.Markup.Loose
import Typeset.Render.Leaf
import Typeset.Text.Blank
import Typeset.Value.Basic

/-! Blocks that hold no other blocks, and the frames of those that do. -/

namespace Typeset.Render

/-- The kinds of block tokens. -/
inductive BlockKind
  | heading
  | paragraph
  | list
  | listItem
  | code
  | quote
  | rule
  | table
  | formula
  | html
  deriving DecidableEq, Repr

/-- The kind of block token that a type names. -/
def blockKind? : String → Option BlockKind
  | "heading" => some .heading
  | "paragraph" => some .paragraph
  | "list" => some .list
  | "list_item" => some .listItem
  | "block_code" => some .code
  | "block_quote" => some .quote
  | "thematic_break" => some .rule
  | "table" => some .table
  | "block_math" => some .formula
  | "html_block" => some .html
  | _ => none

/-- The types of blocks that are collected beforehand and show nothing themselves. -/
def isSilent (kind : String) : Bool :=
  kind == "frontmatter" || kind == "definition" || kind == "footnote_definition"

/-- A warning about a block of an unknown kind. -/
def unknownBlock (kind : Value) : Issue where
  severity := .warning
  code := .unknownBlock
  message := "Unknown block node type: " ++ kind.shown
  stage := .blockRendering
  details := [("node_type", kind)]

/-- The report of a block that could not be rendered. -/
def brokenBlock (kind : Value) (cause : Failure) : Issue where
  severity := .error
  code := .blockRenderError
  message := "Error rendering block node: " ++ cause.text
  stage := .blockRendering
  details := [("node_type", kind)]
  cause := some cause

/-- The outline that takes the place of a lone marker. -/
def outline : String := "#outline(title: auto, indent: auto)"

/-- A rule across the page. -/
def rule : String := "#line(length: 100%, stroke: 0.6pt)"

/-- A heading's level, kept between one and six. A fraction within those bounds is no level, which
shows only when the heading is written. -/
def headingLevel (level : Value) : Except Failure (Option Nat) :=
  match level with
  | .bool _ => .ok (some 1)
  | .int n => .ok (some (min (max n 1) 6).toNat)
  | level =>
    match level.compareTo? 1, level.compareTo? 6 with
    | some .lt, _ => .ok (some 1)
    | _, some .gt => .ok (some 6)
    | some _, some _ => .ok none
    | _, _ => .error .mismatch

/-- The mark of a heading of a level. -/
def headingMark (level : Nat) : String := String.ofList (List.replicate level '=')

/-- The marker of the items of a list. -/
def listMarker (token : Value) : Except Failure String := do
  return if (← token.attr "ordered" .null).truthy then "+" else "-"

/-- The lines of an item that starts with a paragraph: the first after the marker, the others one
level deeper. -/
def itemLead (marker text : String) (indent : Int) : List String :=
  match (marker ++ " " ++ text).toList.splitOn '\n' with
  | [] => []
  | [first] => [Markup.indent (String.ofList first) indent]
  | first :: more =>
    [Markup.indent (String.ofList first) indent,
      Markup.indent (String.ofList (List.intercalate ['\n'] more)) (indent + 1)]

/-- Lines as one text. -/
def lines (parts : List String) : String := String.intercalate "\n" parts

/-- Code between fences, with the language after the first. -/
def codeBlock (token : Value) (indent : Int) : Except Failure String := do
  let code ← token.field "raw" (.str "")
  let info ← ((← token.attr "info" .null).orElse (.str "")).asText
  let fence ← Markup.fenceValue code
  let body ← (← Markup.indentValue code (.int indent)).needText
  return lines [Markup.indent (fence ++ Text.strip info) indent, body, Markup.indent fence indent]

/-- Blocks in a quotation. -/
def quoteBlock (body : String) (indent : Int) : String :=
  let opening := Markup.indent "#quote[" indent
  let closing := Markup.indent "]" indent
  if Text.isBlankText body then lines [opening, closing]
  else lines [opening, Markup.indent body (indent + 1), closing]

/-- A block of HTML as literal text; nothing if it is blank. -/
def htmlBlock (token : Value) (indent : Int) : Except Failure (Option String) := do
  let raw ← (← token.field "raw" (.str "")).asText
  let text := String.ofList (Text.trim (· == '\n') raw.toList)
  return if Text.isBlankText text then none else some (Markup.indent (Markup.escape text) indent)

/-- A warning about a table that has nothing to show. -/
def emptyTable (message : String) : Issue where
  severity := .warning
  code := .emptyTable
  message := message
  stage := .tableRendering

/-- How one column is aligned: as declared, or to the left. -/
def alignment (declared : Value) : Except Failure String :=
  if !declared.hashable then .error .mismatch
  else match declared with
    | .str "center" => .ok "center"
    | .str "right" => .ok "right"
    | _ => .ok "left"

/-- How the columns of a table are aligned. Columns beyond the declared ones are aligned to the
left. -/
def alignments (token : Value) (columns : Nat) : Except Failure (List String) := do
  let declared := (← token.attr "align" .null).orElse (.list [])
  let count ← if columns = 0 then .ok 0 else declared.count
  (List.range columns).mapM fun i => do
    if i < count then alignment (← declared.at? i) else .ok "left"

/-- Cells of a row, one after the other. -/
def cellRow (cells : List String) : String := String.intercalate ", " cells

/-- A table out of its rendered cells. Rows without cells are left out. -/
def tableMarkup (align head : List String) (body : List (List String)) : String :=
  let columns := cellRow (head.map fun _ => "1fr")
  let header := cellRow (head.map fun cell => "[*" ++ cell ++ "*]")
  let rows := (body.filter fun row => !row.isEmpty).map fun row =>
    "  " ++ cellRow (row.map fun cell => "[" ++ cell ++ "]")
  lines (["#table(", "  columns: (" ++ columns ++ "),", "  align: (" ++ cellRow align ++ "),",
      "  table.header(" ++ header ++ "),"] ++
    (if rows.isEmpty then [] else [String.intercalate ",\n" rows]) ++ [")"])

end Typeset.Render
