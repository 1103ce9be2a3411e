import Typeset.Yaml.Node
import Typeset.Yaml.Number

/-! What a metadata block says: the value under each of its keys, as far as metadata fields look
into it. -/

namespace Typeset.Yaml

/-- A value as a metadata field sees it. -/
inductive Reading
  | null
  | text (s : String)
  /-- A list: the texts among its items, and none for each other item. -/
  | list (items : List (Option String))
  /-- Some other value, by the name of its kind. -/
  | other (kind : String)
  deriving DecidableEq, Repr

/-- A whole block: nothing, one value that is no mapping, or the values under text keys. -/
inductive Block
  | empty
  | value (kind : String)
  | mapping (entries : List (String × Reading))

/-- The nodes, those whose values are made, and those whose contents are still to be made. -/
structure Building where
  nodes : Array Node
  made : List Nat := []
  waiting : List Nat := []

/-- A step in making values. -/
abbrev Build := StateT Building (Except Failure)

namespace Build

/-- A node by its number. -/
def node (i : Nat) : Build Node := do
  match (← get).nodes[i]? with
  | some n => return n
  | none => throw .yamlSyntax

/-- Sets what a node is. -/
def put (i : Nat) (n : Node) : Build Unit :=
  modify fun s => { s with nodes := s.nodes.modify i fun _ => n }

/-- The pairs of a node that must be a mapping. -/
def pairsOf (n : Node) : Build (List (Nat × Nat)) :=
  match n.content with
  | .mapping pairs => return pairs
  | _ => throw .yamlSyntax

/-- The items of a node that must be a sequence. -/
def itemsOf (n : Node) : Build (List Nat) :=
  match n.content with
  | .sequence items => return items
  | _ => throw .yamlSyntax

/-- The text of a node that must be a scalar. A mapping stands for the value under its default
key, which is looked for without end if it is the mapping itself. -/
def textOf : Nat → Nat → Build String
  | 0, _ => throw endless
  | fuel + 1, i => do
    match (← node i).content with
    | .scalar text => return text
    | .sequence _ => throw .yamlSyntax
    | .mapping pairs =>
      match ← pairs.findM? fun p => do return (← node p.1).tag == .default with
      | some (_, v) => textOf fuel v
      | none => throw .yamlSyntax

/-- Raises a failure if there is one. -/
def check (fault : Option Failure) : Build Unit :=
  match fault with
  | some f => throw f
  | none => pure ()

/-- Whether values of a kind cannot be keys. -/
def isCollection : Tag → Bool
  | .seq | .map | .set | .omap | .pairs => true
  | _ => false

/-- Checks the text of a scalar; the contents of a collection wait for their turn. -/
def checkOrWait (i : Nat) (n : Node) : Build Unit := do
  if isCollection n.tag then modify fun s => { s with waiting := s.waiting ++ [i] }
  else if n.tag.isScalar then
    let s ← get
    check (scalarFault? n.tag (← textOf (s.nodes.size + 1) i))
  else throw .yamlSyntax

/-- Makes the value of a node, once. -/
def make (i : Nat) : Build Unit := do
  let s ← get
  if s.made.contains i then pure ()
  else
    checkOrWait i (← node i)
    modify fun s => { s with made := i :: s.made }

/-- A pair with the kind of its key. -/
def tagged (p : Nat × Nat) : Build ((Nat × Nat) × Tag) := do return (p, (← node p.1).tag)

/-- Takes a default key for the text of its sign. -/
def settleKey (e : (Nat × Nat) × Tag) : Build Unit := do
  if e.2 == .default then put e.1.1 { (← node e.1.1) with tag := .str } else pure ()

/-- The pairs of a mapping once it is flat. -/
def flatPairs (flatten : Nat → Build Unit) (i : Nat) : Build (List (Nat × Nat)) := do
  flatten i
  pairsOf (← node i)

/-- The pairs of an item among merged ones, which must be a mapping. -/
def itemPairs (flatten : Nat → Build Unit) (i : Nat) : Build (List (Nat × Nat)) := do
  let _ ← pairsOf (← node i)
  flatPairs flatten i

/-- The pairs that are merged in with a value: those of a mapping, or those of the mappings in a
sequence, the last ones first. -/
def mergedPairs (flatten : Nat → Build Unit) (v : Nat) : Build (List (Nat × Nat)) := do
  match (← node v).content with
  | .mapping _ => flatPairs flatten v
  | .sequence items => return (← items.mapM (itemPairs flatten)).reverse.flatten
  | .scalar _ => throw .yamlSyntax

/-- Puts pairs in front of a mapping's own. -/
def prepend (i : Nat) (merged : List (Nat × Nat)) : Build Unit := do
  if merged.isEmpty then pure ()
  else
    let n ← node i
    put i { n with content := .mapping (merged ++ (← pairsOf n)) }

/-- Puts the pairs of merged mappings in front of a mapping's own, and takes a default key for the
text of its sign. -/
def flatten : Nat → Nat → Build Unit
  | 0, _ => pure ()
  | fuel + 1, i => do
    let n ← node i
    let all ← (← pairsOf n).mapM tagged
    put i { n with content := .mapping ((all.filter fun e => e.2 != .merge).map (·.1)) }
    all.forM settleKey
    let merges := (all.filter fun e => e.2 == .merge).map (·.1.2)
    prepend i (← merges.mapM (mergedPairs (flatten fuel))).flatten

/-- Makes the key and the value of a pair. -/
def makePair (p : Nat × Nat) : Build Unit := do
  make p.1
  if isCollection (← node p.1).tag then throw .yamlSyntax else make p.2

/-- Makes the only pair of an item. -/
def makeOnlyPair (i : Nat) : Build Unit := do
  match ← pairsOf (← node i) with
  | [p] =>
    make p.1
    make p.2
  | _ => throw .yamlSyntax

/-- Makes the contents of a collection. -/
def expand (i : Nat) : Build Unit := do
  let n ← node i
  match n.tag with
  | .seq => (← itemsOf n).forM make
  | .map | .set =>
    let _ ← pairsOf n
    flatten ((← get).nodes.size + 1) i
    (← pairsOf (← node i)).forM makePair
  | _ => (← itemsOf n).forM makeOnlyPair

/-- Makes the contents of waiting collections, row by row. Each node waits once. -/
def expandAll : Nat → Build Unit
  | 0 => pure ()
  | fuel + 1 => do
    match (← get).waiting with
    | [] => pure ()
    | i :: rest =>
      modify fun s => { s with waiting := rest }
      expand i
      expandAll fuel

end Build

/-- A value by its node. -/
def Reading.ofNode (nodes : Array Node) (i : Nat) : Reading :=
  let textAt (i : Nat) : Option String :=
    match nodes[i]? with
    | some ⟨.str, .scalar s⟩ => some s
    | some ⟨.str, c⟩ => textIn (nodes.size + 1) c
    | _ => none
  match nodes[i]? with
  | none => .null
  | some n =>
    match n.tag with
    | .null => .null
    | .str => .text ((textAt i).getD "")
    | .seq =>
      match n.content with
      | .sequence items => .list (items.map textAt)
      | _ => .list []
    | .omap | .pairs =>
      match n.content with
      | .sequence items => .list (items.map fun _ => none)
      | _ => .list []
    | .bool => .other "bool"
    | .int => .other "int"
    | .float => .other "float"
    | .binary => .other "bytes"
    | .timestamp =>
      match n.content with
      | .scalar s => .other (if ((moment? s).bind (·.clock)).isSome then "datetime" else "date")
      | _ => .other "date"
    | .map => .other "dict"
    | .set => .other "set"
    | .merge | .default | .unknown => .null
where
  textIn : Nat → Content → Option String
    | 0, _ => none
    | _ + 1, .scalar s => some s
    | _ + 1, .sequence _ => none
    | fuel + 1, .mapping pairs =>
      match pairs.find? fun p => (nodes[p.1]?.map (·.tag)) == some .default with
      | some (_, v) =>
        match nodes[v]? with
        | some n => textIn fuel n.content
        | none => none
      | none => none

/-- The name of a reading's kind. -/
def Reading.kindName : Reading → String
  | .null => "NoneType"
  | .text _ => "str"
  | .list _ => "list"
  | .other kind => kind

/-- What a block says whose values are made. -/
def Block.ofMade (nodes : Array Node) (root : Nat) : Block :=
  match nodes[root]? with
  | none => .empty
  | some n =>
    match n.tag, n.content with
    | .map, .mapping pairs =>
      let entry (p : Nat × Nat) : Option (String × Reading) :=
        match Reading.ofNode nodes p.1 with
        | .text key => some (key, Reading.ofNode nodes p.2)
        | _ => none
      .mapping (pairs.filterMap entry)
    | _, _ =>
      match Reading.ofNode nodes root with
      | .null => .empty
      | v => .value v.kindName

/-- Makes the values of a whole block, its root first. -/
def Build.all (nodes : Array Node) (root : Nat) : Build Unit := do
  make root
  expandAll (nodes.size + 1)

/-- What a block of some nodes says. -/
def Block.ofNodes (nodes : Array Node) : Option Nat → Except Failure Block
  | none => .ok .empty
  | some root => do
    let (_, s) ← (Build.all nodes root).run { nodes }
    .ok (ofMade s.nodes root)

/-- What a metadata block says. -/
def Block.ofText (text : String) : Except Failure Block := do
  let (nodes, root) ← nodesOf text.toList
  ofNodes nodes root

/-- A loader of YAML: what it makes of the text of a metadata block. -/
abbrev Loader := String → Except ReadingFault Block

/-- The loader whose values are those of the plain scalars and tags of YAML, without dates. -/
def load : Loader := fun text => (Block.ofText text).mapError .ofFailure

/-- The value under a key: the last one, if it comes more than once. -/
def lastUnder (key : String) (entries : List (String × Reading)) : Option Reading :=
  entries.reverse.lookup key

end Typeset.Yaml
