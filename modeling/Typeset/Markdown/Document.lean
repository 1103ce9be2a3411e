import Typeset.Markdown.Block
import Typeset.Markdown.Span

/-! Markdown documents as tokens. -/

namespace Typeset.Markdown

mutual

/-- The link definitions in a block. -/
def Block.targets : Block → List LinkTarget
  | .definition link => [link]
  | .quote children => Block.targetsOf children
  | .list _ _ items => Block.targetsOfItems items
  | _ => []

/-- The link definitions in blocks, in order. -/
def Block.targetsOf : List Block → List LinkTarget
  | [] => []
  | block :: rest => block.targets ++ Block.targetsOf rest

/-- The link definitions in the items of a list, in order. -/
def Block.targetsOfItems : List (List Block) → List LinkTarget
  | [] => []
  | item :: rest => Block.targetsOf item ++ Block.targetsOfItems rest

end

/-- The tokens of a text. -/
def inlineTokens (targets : List LinkTarget) (text : List Char) : List Value :=
  Inline.tokens (readInlines targets text)

/-- The token of a cell of a table. -/
def cellToken (targets : List LinkTarget) (head : Bool) (align : Option Align)
    (text : List Char) : Value :=
  Token.markedBranch "table_cell"
    [("align", .ofText? (align.map Align.name)), ("head", .bool head)] (inlineTokens targets text)

/-- The token of a table. -/
def Table.token (targets : List LinkTarget) (table : Table) : Value :=
  let row (head : Bool) (cells : List (List Char)) : List Value :=
    List.zipWith (cellToken targets head) table.aligns cells
  let body := table.rows.map fun cells => Token.branch "table_row" (row false cells)
  let parts := [Token.branch "table_head" (row true table.head)] ++
    if body.isEmpty then [] else [Token.branch "table_body" body]
  Token.branch "table" parts

/-- The attributes of a list. -/
def listAttrs (start : Option Nat) (depth : Nat) : List (String × Value) :=
  [("depth", .int depth), ("ordered", .bool start.isSome)] ++
    match start with
    | some n => if n = 1 then [] else [("start", .int n)]
    | none => []

mutual

/-- The token of a block; none for a definition. -/
def Block.tokens (targets : List LinkTarget) : Block → List Value
  | .blank => [.object [("type", .str "blank_line")]]
  | .paragraph text => [Token.branch "paragraph" (inlineTokens targets text)]
  | .heading level text =>
    [Token.markedBranch "heading" [("level", .int level)] (inlineTokens targets text)]
  | .rule => [.object [("type", .str "thematic_break")]]
  | .code info raw =>
    let attrs := if info.isEmpty then [] else [("attrs", .object [("info", ofChars info)])]
    [.object ([("type", .str "block_code"), ("raw", ofChars raw)] ++ attrs)]
  | .html raw => [Token.leaf "block_html" (String.ofList raw)]
  | .math raw => [Token.leaf "block_math" (String.ofList raw)]
  | .table content => [content.token targets]
  | .definition _ => []
  | .quote children => [Token.branch "block_quote" (Block.tokensOf targets children)]
  | .list start depth items =>
    [Token.markedBranch "list" (listAttrs start depth) (Block.itemTokens targets items)]

/-- The tokens of blocks. -/
def Block.tokensOf (targets : List LinkTarget) : List Block → List Value
  | [] => []
  | block :: rest => block.tokens targets ++ Block.tokensOf targets rest

/-- The tokens of the items of a list. -/
def Block.itemTokens (targets : List LinkTarget) : List (List Block) → List Value
  | [] => []
  | item :: rest =>
    Token.branch "list_item" (Block.tokensOf targets item) :: Block.itemTokens targets rest

end

/-- The lines of a document. A line ends with a line feed, a carriage return or both. -/
def linesOf : List Char → List (List Char)
  | [] => []
  | c :: rest =>
    if c = '\n' || (c = '\r' && rest.head? != some '\n') then [] :: linesOf rest
    else if c = '\r' then linesOf rest
    else match linesOf rest with
      | [] => [[c]]
      | line :: lines => (c :: line) :: lines

/-- The blocks of a document. No more containers can be in one another than it has characters. -/
def blocks (text : List Char) : List Block :=
  readBlocks (text.length + 1) {} ((linesOf text).map fun line => { text := line })

/-- The tokens of a document. The definitions anywhere in it count for all of it. -/
def tokens (text : List Char) : List Value :=
  let blocks := blocks text
  Block.tokensOf (Block.targetsOf blocks) blocks

end Typeset.Markdown
