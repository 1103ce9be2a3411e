import Typeset.Yaml.Token
import Typeset.Yaml.Tag

/-! The nodes of a metadata block. They stand in an array, so that an alias is the number of the
node it names and a collection may hold itself. -/

namespace Typeset.Yaml

/-- What a node is made of. -/
inductive Content
  | scalar (text : String)
  | sequence (items : List Nat)
  | mapping (pairs : List (Nat × Nat))

/-- A node: its kind and what it is made of. -/
structure Node where
  tag : Tag
  content : Content

/-- The nodes made so far, the tokens left, and what the directives and anchors have named. -/
structure Composing where
  tokens : List Token
  /-- Why there are no more tokens, if that is not the end of the text. -/
  failure : Option Failure := none
  nodes : Array Node := #[]
  anchors : List (String × Nat) := []
  handles : List (String × String) := []

/-- A step that uses up tokens and makes nodes. -/
abbrev Compose := StateT Composing (Except Failure)

namespace Compose

def fail {α : Type} : Compose α := throw .yamlSyntax

/-- The token ahead. -/
def peek : Compose (Option Token) := do
  let s ← get
  match s.tokens, s.failure with
  | [], some f => throw f
  | tokens, _ => return tokens.head?

/-- The place after the token ahead. -/
def drop : Compose Unit := modify fun s => { s with tokens := s.tokens.drop 1 }

/-- A new node. -/
def make (n : Node) : Compose Nat := do
  let s ← get
  set { s with nodes := s.nodes.push n }
  return s.nodes.size

/-- A node made of something else. -/
def fill (i : Nat) (c : Content) : Compose Unit :=
  modify fun s => { s with nodes := s.nodes.modify i fun n => { n with content := c } }

/-- The empty scalar that stands where a node is missing. -/
def missing : Compose Nat := make ⟨.null, .scalar ""⟩

/-- Names a node. -/
def name (anchor : Option String) (i : Nat) : Compose Unit :=
  match anchor with
  | some a => modify fun s => { s with anchors := (a, i) :: s.anchors }
  | none => pure ()

/-- The anchor and the tag before a node, in either order. -/
def properties : Compose (Option String × Option TagName) := do
  match ← peek with
  | some (.anchor a) =>
    drop
    match ← peek with
    | some (.tag t) => drop; return (some a, some t)
    | _ => return (some a, none)
  | some (.tag t) =>
    drop
    match ← peek with
    | some (.anchor a) => drop; return (some a, some t)
    | _ => return (none, some t)
  | _ => return (none, none)

/-- A tag in full; its handle must be known. -/
def fullTag (t : TagName) : Compose String := do
  match t.handle with
  | none => return t.suffix
  | some h =>
    match (← get).handles.lookup h with
    | some uri => return uri ++ t.suffix
    | none => fail

/-- A tag in full, if there is one. -/
def optionalTag (t : Option TagName) : Compose (Option String) :=
  match t with
  | some t => some <$> fullTag t
  | none => pure none

/-- The kind of a collection with an optional tag. -/
def collectionTag (uri : Option String) (other : Tag) : Tag :=
  match uri with
  | none => other
  | some "!" => other
  | some uri => Tag.ofUri uri

/-- The kind of a scalar with an optional tag. -/
def scalarTag (uri : Option String) (plain : Bool) (text : String) : Tag :=
  match uri with
  | none => if plain then Tag.ofPlain text else .str
  | some "!" => Tag.ofPlain text
  | some uri => Tag.ofUri uri

/-- A name that no node has yet. -/
def unnamed (anchor : Option String) : Compose Unit := do
  if let some a := anchor then
    if ((← get).anchors.lookup a).isSome then fail

/-- A sequence with its properties; its name is known inside it. -/
def sequence (anchor uri : Option String) (items : Compose (List Nat)) : Compose Nat := do
  unnamed anchor
  let i ← make ⟨collectionTag uri .seq, .sequence []⟩
  name anchor i
  fill i (.sequence (← items))
  return i

/-- A mapping with its properties. -/
def mapping (anchor uri : Option String) (pairs : Compose (List (Nat × Nat))) : Compose Nat := do
  unnamed anchor
  let i ← make ⟨collectionTag uri .map, .mapping []⟩
  name anchor i
  fill i (.mapping (← pairs))
  return i

/-- A scalar with its properties. -/
def scalar (anchor uri : Option String) (text : String) (plain : Bool) : Compose Nat := do
  unnamed anchor
  let i ← make ⟨scalarTag uri plain text, .scalar text⟩
  name anchor i
  return i

/-- A place where a node may be missing. -/
inductive Place
  | entry
  | indentless
  | pair
  | flow (closing : Bool)

/-- Whether the token ahead cannot start a node in a place, so that the node is missing. -/
def Place.isEmpty (p : Place) (t : Option Token) : Bool :=
  match p, t with
  | _, none => true
  | .entry, some .entry => true
  | .entry, some .blockEnd => true
  | .indentless, some .entry => true
  | .indentless, some .key => true
  | .indentless, some .value => true
  | .indentless, some .blockEnd => true
  | .pair, some .key => true
  | .pair, some .value => true
  | .pair, some .blockEnd => true
  | .flow _, some .flowEntry => true
  | .flow _, some .value => true
  | .flow false, some .flowSequenceEnd => true
  | .flow true, some .flowMappingEnd => true
  | _, _ => false

/-- The value after a key in a block, unless it is missing. -/
def blockValue (read : Compose Nat) : Compose Nat := do
  match ← peek with
  | some .value => drop; read
  | _ => missing

/-- The value after a key in flow, unless it is missing. -/
def flowValue (read : Compose Nat) : Compose Nat := do
  match ← peek with
  | some .value =>
    drop
    -- A second colon is no end of the pair here.
    match ← peek with
    | some .value => fail
    | _ => read
  | _ => missing

/-- The comma before each item but the first of a flow collection. -/
def separator (first : Bool) (t : Option Token) : Compose Unit :=
  if first then pure ()
  else match t with
    | some .flowEntry => drop
    | _ => fail

mutual

/-- A node: an alias, or properties and then a scalar or a collection. In a block, a sequence may
stand under its key without indentation. -/
def node (block indentless : Bool) : Nat → Compose Nat
  | 0 => fail
  | fuel + 1 => do
    match ← peek with
    | some (.alias a) =>
      drop
      match (← get).anchors.lookup a with
      | some i => return i
      | none => fail
    | _ =>
      let (anchor, tag) ← properties
      let uri ← optionalTag tag
      let named := anchor.isSome || tag.isSome
      match ← peek with
      | some .entry =>
        if indentless then sequence anchor uri (indentlessItems fuel)
        else if named then scalar anchor uri "" true
        else fail
      | some (.scalar text plain) => drop; scalar anchor uri text plain
      | some .flowSequenceStart => drop; sequence anchor uri (flowItems true fuel)
      | some .flowMappingStart => drop; mapping anchor uri (flowPairs true fuel)
      | some .blockSequenceStart =>
        if block then do drop; sequence anchor uri (blockItems fuel)
        else if named then scalar anchor uri "" true
        else fail
      | some .blockMappingStart =>
        if block then do drop; mapping anchor uri (blockPairs fuel)
        else if named then scalar anchor uri "" true
        else fail
      | _ => if named then scalar anchor uri "" true else fail

/-- A node that may be missing. -/
def optional (p : Place) (block indentless : Bool) : Nat → Compose Nat
  | 0 => fail
  | fuel + 1 => do
    if p.isEmpty (← peek) then missing else node block indentless fuel

/-- The items of a block sequence and its end. -/
def blockItems : Nat → Compose (List Nat)
  | 0 => fail
  | fuel + 1 => do
    match ← peek with
    | some .entry =>
      drop
      let i ← optional .entry true false fuel
      return i :: (← blockItems fuel)
    | some .blockEnd => drop; return []
    | _ => fail

/-- The items of a sequence without indentation of its own. -/
def indentlessItems : Nat → Compose (List Nat)
  | 0 => fail
  | fuel + 1 => do
    match ← peek with
    | some .entry =>
      drop
      let i ← optional .indentless true false fuel
      return i :: (← indentlessItems fuel)
    | _ => return []

/-- The pairs of a block mapping and its end. -/
def blockPairs : Nat → Compose (List (Nat × Nat))
  | 0 => fail
  | fuel + 1 => do
    match ← peek with
    | some .key =>
      drop
      let k ← optional .pair true true fuel
      let v ← blockValue (optional .pair true true fuel)
      return (k, v) :: (← blockPairs fuel)
    | some .blockEnd => drop; return []
    | _ => fail

/-- The items of a flow sequence and its end. A pair among them is a mapping of its own. -/
def flowItems (first : Bool) : Nat → Compose (List Nat)
  | 0 => fail
  | fuel + 1 => do
    match ← peek with
    | some .flowSequenceEnd => drop; return []
    | t =>
      separator first t
      match ← peek with
      | some .flowSequenceEnd => drop; return []
      | some .key =>
        drop
        let i ← make ⟨.map, .mapping []⟩
        let k ← optional (.flow false) false false fuel
        let v ← flowValue (optional (.flow false) false false fuel)
        fill i (.mapping [(k, v)])
        return i :: (← flowItems false fuel)
      | _ =>
        let i ← node false false fuel
        return i :: (← flowItems false fuel)

/-- The pairs of a flow mapping and its end. A node without a key sign is a key without a
value. -/
def flowPairs (first : Bool) : Nat → Compose (List (Nat × Nat))
  | 0 => fail
  | fuel + 1 => do
    match ← peek with
    | some .flowMappingEnd => drop; return []
    | t =>
      separator first t
      match ← peek with
      | some .flowMappingEnd => drop; return []
      | some .key =>
        drop
        let k ← optional (.flow true) false false fuel
        let v ← flowValue (optional (.flow true) false false fuel)
        return (k, v) :: (← flowPairs false fuel)
      | _ =>
        let k ← node false false fuel
        let v ← missing
        return (k, v) :: (← flowPairs false fuel)

end

/-- Names a handle. -/
def addHandle (handle uri : String) : Compose Unit :=
  modify fun s => { s with handles := (handle, uri) :: s.handles }

/-- The directives before a document. -/
def directives (version : Bool) : Nat → Compose Unit
  | 0 => fail
  | fuel + 1 => do
    match ← peek with
    | some (.directive d) =>
      drop
      match d with
      | .version major _ => if version || major != 1 then fail else directives true fuel
      | .tag handle uri =>
        if ((← get).handles.lookup handle).isSome then fail
        else
          addHandle handle uri
          directives version fuel
      | .other => directives version fuel
    | _ => pure ()

/-- The handles that need no directive. -/
def defaultHandles : List (String × String) := [("!", "!"), ("!!", "tag:yaml.org,2002:")]

/-- Marks that end a document before it began. -/
def dropEnds : Nat → Compose Unit
  | 0 => pure ()
  | fuel + 1 => do
    match ← peek with
    | some .documentEnd => drop; dropEnds fuel
    | _ => pure ()

/-- The mark that ends a document, if it stands ahead. -/
def dropEnd : Compose Unit := do
  match ← peek with
  | some .documentEnd => drop
  | _ => pure ()

/-- The mark that starts a document, which must stand ahead. -/
def dropStart : Compose Unit := do
  match ← peek with
  | some .documentStart => drop
  | _ => fail

/-- Names more handles. -/
def addHandles (handles : List (String × String)) : Compose Unit :=
  modify fun s => { s with handles := s.handles ++ handles }

/-- The root of a document after its directives and its mark. It may be missing. -/
def explicitRoot (fuel : Nat) : Compose Nat := do
  directives false fuel
  addHandles defaultHandles
  dropStart
  match ← peek with
  | none => missing
  | some (.directive _) => missing
  | some .documentStart => missing
  | some .documentEnd => missing
  | _ => node true false fuel

/-- The root of a document that nothing stands before. -/
def bareRoot (fuel : Nat) : Compose Nat := do
  addHandles defaultHandles
  node true false fuel

/-- The root of the first document; none if the text holds no document. -/
def firstRoot (fuel : Nat) : Compose (Option Nat) := do
  match ← peek with
  | none => return none
  | some (.directive _) => ended (explicitRoot fuel)
  | some .documentStart => ended (explicitRoot fuel)
  | some _ => ended (bareRoot fuel)
where
  ended (read : Compose Nat) : Compose (Option Nat) := do
    let root ← read
    dropEnd
    return some root

/-- A second document is refused at its mark. -/
def anotherRoot (fuel : Nat) : Compose (Option Nat) := do
  modify fun s => { s with handles := [] }
  directives false fuel
  let _ ← peek
  fail

/-- The only document: the number of its root, or none if the text holds no document. -/
def document (fuel : Nat) : Compose (Option Nat) := do
  let root ← firstRoot fuel
  dropEnds fuel
  match ← peek with
  | none => return root
  | some _ => anotherRoot fuel

end Compose

/-- The nodes of a metadata block and the number of the root, if there is one. -/
def nodesOf (text : List Char) : Except Failure (Array Node × Option Nat) := do
  let scanned ← Scanned.ofText text
  let fuel := 4 * scanned.tokens.size + 8
  let (root, s) ←
    (Compose.document fuel).run { tokens := scanned.tokens.toList, failure := scanned.failure }
  .ok (s.nodes, root)

end Typeset.Yaml
