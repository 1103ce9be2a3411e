import Typeset.Token.Reference
import Typeset.Token.PlainText

/-! Token trees as the Markdown reader builds them, brought into the form that the renderers take:
one name for each kind, flat tables, code without its last line end, and references found in the
text. -/

namespace Typeset.Token

section Normal

/-- The rendered names of block kinds. -/
def blockNames : List (String × String) :=
  [("heading", "heading"), ("paragraph", "paragraph"), ("block_quote", "block_quote"),
    ("list", "list"), ("list_item", "list_item"), ("block_code", "block_code"),
    ("thematic_break", "thematic_break"), ("block_math", "block_math"),
    ("block_html", "html_block"), ("block_text", "paragraph")]

/-- The rendered names of inline kinds. -/
def inlineNames : List (String × String) :=
  [("text", "text"), ("strong", "strong"), ("emphasis", "emphasis"), ("codespan", "codespan"),
    ("strikethrough", "strikethrough"), ("mark", "mark"), ("superscript", "superscript"),
    ("subscript", "subscript"), ("link", "link"), ("image", "image"),
    ("inline_math", "inline_math"), ("softbreak", "softbreak"), ("linebreak", "linebreak"),
    ("inline_html", "html_inline")]

/-- The name of a kind in a table of names. -/
def nameIn (table : List (String × String)) (key : Option String) : Option String :=
  key.bind fun k => table.lookup k

/-- A copy of attributes. Pairs listed one after the other count as an object. -/
def copyAttrs (attrs : Value) : Except Failure (List (String × Value)) :=
  match attrs with
  | .object fields => .ok fields
  | .list items => do
    let pair (v : Value) : Except Failure (String × Value) := do
      match ← v.parts with
      | [.str key, w] => .ok (key, w)
      | [_, _] => .error .mismatch
      | _ => .error .badNumber
    let pairs ← items.mapM pair
    .ok (Value.override [] pairs)
  | .str s => if s = "" then .ok [] else .error .badNumber
  | _ => .error .mismatch

/-- The attributes of a token that has any, as a field. -/
def attrsField (token : Value) : Except Failure (List (String × Value)) := do
  let attrs ← token.field "attrs" .null
  if attrs.truthy then return [("attrs", .object (← copyAttrs attrs))] else return []

/-- The raw text of a token that has it, as a field. -/
def rawField (token : Value) : Except Failure (List (String × Value)) := do
  match ← token.field? "raw" with
  | some raw => return [("raw", raw)]
  | none => return []

/-- Code without its last line end. -/
def dropLastNewline (cs : List Char) : List Char :=
  match cs.reverse with
  | '\n' :: rest => rest.reverse
  | _ => cs

/-- The first word of the line after a fence, if there is one. -/
def firstWord (info : String) : Value := .ofText? (Text.words info).head?

/-- The attributes of a token, which can be copied if there are any. -/
def checkedAttrs (token : Value) : Except Failure Value := do
  let attrs ← token.field "attrs" .null
  if attrs.truthy then (copyAttrs attrs).map fun _ => attrs else .ok attrs

/-- A code block: its text, and the first word of its fence. -/
def codeBlock (token : Value) : Except Failure Value := do
  let attrs ← checkedAttrs token
  let raw ← (← token.field "raw" (.str "")).asText
  let info ← (attrs.orElse (.object [])).field "info" .null
  let info ← (info.orElse (.str "")).asText
  return .object
    [("type", .str "block_code"), ("attrs", .object [("info", firstWord info)]),
      ("raw", .str (String.ofList (dropLastNewline raw.toList)))]

/-- A formula inside text, with the length of its span in the source: two marks more than the
formula, if nothing else is known. -/
def inlineMath (token : Value) : Except Failure Value := do
  let raw ← token.field "raw" (.str "")
  let attrs := (← token.field "attrs" .null).orElse (.object [])
  let span ← match ← attrs.field "span" .null with
    | .null => do pure (Value.int ((← raw.count) + 2))
    | span => pure span
  return .object [("type", .str "inline_math"), ("raw", raw), ("attrs", .object [("span", span)])]

/-- The children of a token that counts them as present: none if they are absent or empty. -/
def presentChildren (token : Value) : Except Failure (List Value) := do
  let children ← token.field "children" .null
  if children.truthy then token.children else return []

theorem sizeOf_presentChildren_lt {token : Value} {items : List Value}
    (h : presentChildren token = .ok items) : sizeOf items < sizeOf token := by
  unfold presentChildren at h
  cases hf : token.field "children" .null with
  | error f => simp [hf, bind, Except.bind] at h
  | ok c =>
    simp only [hf, bind, Except.bind] at h
    split at h
    · exact Value.sizeOf_children_lt h
    · simp only [pure, Except.pure, Except.ok.injEq] at h
      subst h
      cases token with
      | object fields => exact Value.sizeOf_nil_lt_object fields
      | _ => simp [Value.field, Value.field?, Except.map] at hf

/-- The cells of a table head: its children, or those of the row that wraps them. -/
def headCells (part : Value) : Except Failure (List Value) := do
  let cells ← part.field "children" (.list [])
  if cells.truthy then
    let first ← cells.at? 0
    if (← first.field "type" .null).isText "table_row" then first.children else part.children
  else part.children

/-- The alignment that a cell declares. -/
def cellAlign (cell : Value) : Except Failure Value := do
  ((← cell.field "attrs" .null).orElse (.object [])).field "align" .null

/-- A block under its rendered name, with the field for its children where it has any. -/
def blockToken (name : String) (token : Value) (children : Except Failure (List (String × Value))) :
    Except Failure Value := do
  let head := ("type", Value.str name) :: (← attrsField token)
  if name = "block_math" || name = "html_block" then
    return .object (head ++ [("raw", ← token.field "raw" (.str ""))])
  else if name = "thematic_break" then return .object head
  else return .object (head ++ (← children))

/-- The attributes of an image, with the text that stands for it. -/
def imageAttrs (attrs : List (String × Value)) (alt : String) : Value :=
  let old := match attrs.lookup "attrs" with
    | some (.object fields) => fields
    | _ => []
  .object (Value.setField "alt" (.str alt) old)

/-- An inline under its rendered name, with the field for its children where it has any. -/
def inlineToken (name : String) (token : Value)
    (children : Except Failure (List (String × Value))) : Except Failure Value := do
  if ["text", "softbreak", "linebreak", "codespan", "html_inline"].contains name then
    return .object (("type", .str name) :: (← rawField token))
  else
    let attrs ← attrsField token
    let children ← children
    if name = "image" then
      let alt ← plainText [] ((children.lookup "children").getD (.list []))
      let shown := ("attrs", imageAttrs attrs alt)
      if attrs.isEmpty then return .object (("type", .str name) :: children ++ [shown])
      else return .object (("type", .str name) :: shown :: children)
    else return .object (("type", .str name) :: attrs ++ children)

theorem sizeOf_at?_zero_lt {v w : Value} (h : v.at? 0 = .ok w) (hw : ∃ fs, w = .object fs) :
    sizeOf w < sizeOf v := by
  obtain ⟨fs, rfl⟩ := hw
  cases v with
  | list items =>
    cases items with
    | nil => simp [Value.at?] at h
    | cons a rest =>
      simp [Value.at?] at h
      subst h
      simp
      omega
  | str s =>
    cases hs : s.toList with
    | nil => simp [Value.at?, hs] at h
    | cons c cs => simp [Value.at?, hs] at h
  | _ => simp [Value.at?] at h

theorem sizeOf_headCells_lt {part : Value} {cells : List Value} (h : headCells part = .ok cells) :
    sizeOf cells < sizeOf part := by
  unfold headCells at h
  cases hf : part.field "children" (.list []) with
  | error f => simp [hf, bind, Except.bind] at h
  | ok c =>
    simp only [hf, bind, Except.bind] at h
    split at h
    · cases ha : c.at? 0 with
      | error f => simp [ha] at h
      | ok first =>
        simp only [ha] at h
        cases ht : first.field "type" .null with
        | error f => simp [ht] at h
        | ok t =>
          simp only [ht] at h
          split at h
          · have h1 := Value.sizeOf_children_lt h
            have hobj : ∃ fs, first = .object fs := by
              cases first with
              | object fs => exact ⟨fs, rfl⟩
              | _ => simp [Value.field, Value.field?, Except.map] at ht
            have h2 := sizeOf_at?_zero_lt ha hobj
            have h3 : sizeOf c < sizeOf part := by
              cases part with
              | object fields =>
                simp only [Value.field, Value.field?, Except.map, Except.ok.injEq] at hf
                cases hl : fields.lookup "children" with
                | none =>
                  simp only [hl, Option.getD_none] at hf
                  subst hf
                  simp [Value.at?] at ha
                | some w =>
                  simp only [hl, Option.getD_some] at hf
                  subst hf
                  have := Value.sizeOf_lookup_lt hl
                  simp
                  omega
              | _ => simp [Value.field, Value.field?, Except.map] at hf
            omega
          · exact Value.sizeOf_children_lt h
    · exact Value.sizeOf_children_lt h

mutual

/-- Tokens in the form that the renderers take, without blank lines. -/
def normalizeAll : List Value → Except Failure (List Value)
  | [] => .ok []
  | token :: rest => do
    let here ← normalize token
    let more ← normalizeAll rest
    .ok (here ++ more)
termination_by tokens => sizeOf tokens

/-- A token in the form that the renderers take; nothing for a blank line. Kinds without a name
here pass through, so that the renderers can report them. -/
def normalize (token : Value) : Except Failure (List Value) := do
  let kind ← Token.kind token
  let children : Except Failure (List (String × Value)) :=
    match _h : presentChildren token with
    | .error f => .error f
    | .ok items => do
      let done ← normalizeAll items
      if (← token.field "children" .null).truthy then .ok [("children", .list done)] else .ok []
  match ← kindKey kind with
  | some "blank_line" => return []
  | some "table" =>
    match _h : token.children with
    | .error f => throw f
    | .ok parts =>
      let (align, rows) ← tableParts [] [] parts
      return [markedBranch "table" [("align", .list align)] rows]
  | some "block_code" => return [← codeBlock token]
  | some "inline_math" => return [← inlineMath token]
  | key =>
    match nameIn blockNames key, nameIn inlineNames key with
    | some name, _ => return [← blockToken name token children]
    | none, some name => return [← inlineToken name token children]
    | none, none =>
      return [.object (("type", kind) :: (← rawField token) ++ (← children))]
termination_by sizeOf token
decreasing_by
  · exact sizeOf_presentChildren_lt _h
  · exact Value.sizeOf_children_lt _h

/-- The alignments and rows of a table, part by part: a head gives the alignments and a row, a body
gives its rows. -/
def tableParts (align rows : List Value) : List Value → Except Failure (List Value × List Value)
  | [] => .ok (align, rows)
  | part :: rest => do
    let kind ← part.field "type" .null
    if kind.isText "table_head" then
      match _h : headCells part with
      | .error f => throw f
      | .ok cells =>
        let align ← cells.mapM cellAlign
        let row ← tableRow cells
        tableParts align (rows ++ [branch "table_row" row]) rest
    else if kind.isText "table_body" then
      match _h : part.children with
      | .error f => throw f
      | .ok body => tableParts align (rows ++ (← tableRows body)) rest
    else tableParts align rows rest
termination_by parts => sizeOf parts
decreasing_by
  · exact Nat.lt_trans (sizeOf_headCells_lt _h) (Value.sizeOf_head_lt part rest)
  · exact Value.sizeOf_tail_lt part rest
  · exact Nat.lt_trans (Value.sizeOf_children_lt _h) (Value.sizeOf_head_lt part rest)
  · exact Value.sizeOf_tail_lt part rest
  · exact Value.sizeOf_tail_lt part rest

/-- The rows of a table body. -/
def tableRows : List Value → Except Failure (List Value)
  | [] => .ok []
  | row :: rest =>
    match _h : row.children with
    | .error f => .error f
    | .ok cells => do
      let here ← tableRow cells
      let more ← tableRows rest
      .ok (branch "table_row" here :: more)
termination_by rows => sizeOf rows
decreasing_by
  · exact Nat.lt_trans (Value.sizeOf_children_lt _h) (Value.sizeOf_head_lt row rest)
  · exact Value.sizeOf_tail_lt row rest

/-- The cells of a row. -/
def tableRow : List Value → Except Failure (List Value)
  | [] => .ok []
  | cell :: rest =>
    match _h : cell.children with
    | .error f => .error f
    | .ok children => do
      let here ← normalizeAll children
      let more ← tableRow rest
      .ok (branch "table_cell" here :: more)
termination_by cells => sizeOf cells
decreasing_by
  · exact Nat.lt_trans (Value.sizeOf_children_lt _h) (Value.sizeOf_head_lt cell rest)
  · exact Value.sizeOf_tail_lt cell rest

end

/-- Whether a token is a run of text. -/
def isTextRun (token : Value) : Bool :=
  match token with
  | .object fields => ((fields.lookup "type").getD .null).isText "text"
  | _ => false

/-- The raw text of a run that must have text. -/
def runText (token : Value) : Except Failure String := do
  (← token.field "raw" (.str "")).needText

/-- A token before others, joined with the first of them if both are runs of text. -/
def joinOnto (token : Value) (rest : List Value) : Except Failure (List Value) := do
  if isTextRun token then
    match rest with
    | next :: more =>
      if isTextRun next then return text ((← runText token) ++ (← runText next)) :: more
      else return token :: rest
    | [] => return [token]
  else return token :: rest

/-- Tokens with neighbouring runs of text joined. -/
def mergeText : List Value → Except Failure (List Value)
  | [] => .ok []
  | token :: rest => do
    if let .object _ := token then pure () else throw .noMember
    joinOnto token (← mergeText rest)

/-- Kinds of tokens whose text is not searched for references. -/
def isOpaque (kind : String) : Bool :=
  ["link", "image", "codespan", "link_reference", "image_reference"].contains kind

end Normal

/-! References in the text of a whole token tree. -/

section Resolve

/-- A token as text and references if it is a run of text, else as it is. -/
def splitRun (known : List String) (token : Value) : Except Failure (List Value) :=
  if isTextRun token then (runText token).map (splitReferences known) else .ok [token]

/-- Neighbouring runs of text joined and split at their references. -/
def splitRuns (known : List String) (tokens : List Value) : Except Failure (List Value) := do
  let merged ← mergeText tokens
  return (← merged.mapM (splitRun known)).flatten

/-- A token with other children. -/
def withChildren (children : List Value) : Value → Value
  | .object fields => .object (Value.setField "children" (.list children) fields)
  | v => v

mutual

/-- Tokens with the references below each of them found. -/
def resolveEach (known : List String) : List Value → Except Failure (List Value)
  | [] => .ok []
  | token :: rest => do
    let here ← if isTextRun token then .ok token else resolve known token
    let more ← resolveEach known rest
    .ok (here :: more)
termination_by tokens => sizeOf tokens

/-- A token with the references in the text below it found, except inside links, images, code and
references. -/
def resolve (known : List String) (token : Value) : Except Failure Value := do
  let kind ← token.field "type" .null
  match ← kindKey kind with
  | some name => if isOpaque name then return token
  | none => pure ()
  match _h : presentChildren token with
  | .error f => throw f
  | .ok children =>
    if (← token.field "children" .null).truthy then
      return withChildren (← splitRuns known (← resolveEach known children)) token
    else return token
termination_by sizeOf token
decreasing_by exact sizeOf_presentChildren_lt _h

end

/-- Tokens of the Markdown reader in the form that the renderers take, with their references
found. -/
def canonical (known : List String) (tokens : List Value) : Except Failure (List Value) := do
  (← normalizeAll tokens).mapM (resolve known)

end Resolve

end Typeset.Token
