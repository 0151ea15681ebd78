import IndexChain.Yaml.Plain
import IndexChain.Yaml.Token

/-!
# Nodes of a YAML document

A document is made of scalars, lists and mappings, each with a meaning that its tag or, without a
tag, its shape gives it. An alias stands for the node that an anchor named before, which may be a
node around the alias. So the nodes of a document are a graph: they are numbered in the order in
which they begin, and lists and mappings hold the numbers of their parts.

The nodes are read off the tokens by recursive descent. Every function takes at least one token or
hands over to one that does, so the number of tokens bounds the depth of the calls. Nothing is asked
of a token before it matters, since a flaw of the text shows only where the next token is asked for.
-/

namespace IndexChain.Yaml

/-- What a node is to be read as. -/
inductive Meaning
  | null
  | bool
  | integer
  | decimal
  | timestamp
  | binary
  | text
  | list
  /-- A list of mappings with one entry each. -/
  | entries
  | set
  | mapping
  /-- The key under which one mapping is merged into another. -/
  | merge
  /-- The key of a mapping's own value. -/
  | default
  | unknown
deriving DecidableEq

namespace Meaning

/-- The meanings of the language's own tags. -/
def ownTags : List (String × Meaning) := [
  ("null", null), ("bool", bool), ("int", integer), ("float", decimal), ("timestamp", timestamp),
  ("binary", binary), ("str", text), ("seq", list), ("omap", entries), ("pairs", entries),
  ("set", set), ("map", mapping), ("merge", merge), ("value", default)]

/-- The meaning of a tag in full. -/
def ofTag (tag : Text) : Meaning :=
  match Text.afterStart? Tag.ownStart tag with
  | none => unknown
  | some name =>
    match ownTags.find? fun (own, _) => Text.ofString own = name with
    | some (_, meaning) => meaning
    | none => unknown

/-- The meaning of an unquoted scalar. -/
def ofPlain (t : Text) : Meaning :=
  match PlainKind.ofText t with
  | .bool => bool
  | .decimal => decimal
  | .integer => integer
  | .merge => merge
  | .null => null
  | .timestamp => timestamp
  | .default => default
  | .mark => unknown
  | .text => text

end Meaning

/-- The number of a node in its document. -/
abbrev NodeId := Nat

/-- What is in a node. -/
inductive Content
  | scalar (text : Text)
  | list (items : List NodeId)
  | mapping (pairs : List (NodeId × NodeId))

/-- A node of a document. -/
structure Node where
  meaning : Meaning
  content : Content

namespace Node

/-- The deepest lists and mappings that are read. -/
def depthLimit : Nat := 480

/-- What is left of a document, and what was read of it. -/
structure Unread where
  tokens : List Token
  /-- What is wrong with the text behind the tokens, if anything is. -/
  flaw : Option Flaw
  /-- The beginnings of tags by their handles. -/
  handles : List (Text × Text) := []
  /-- The nodes that anchors named. -/
  anchors : List (Text × NodeId) := []
  nodes : Array Node := Array.empty
  /-- The number of lists and mappings that are being read. -/
  depth : Nat := 0

/-- A step of reading a document. -/
abbrev Reading := StateT Unread (Except Flaw)

/-- The next token, which stays unread. -/
def peek : Reading (Option Token) := do
  let u ← get
  match u.tokens, u.flaw with
  | t :: _, _ => return some t
  | [], some flaw => throw flaw
  | [], none => return none

/-- Takes the next token. -/
def take : Reading Unit := modify fun u => { u with tokens := u.tokens.drop 1 }

/-- The document is malformed. -/
def refuse {α : Type} : Reading α := throw .malformed

/-- A new node. -/
def add (meaning : Meaning) (content : Content) : Reading NodeId := do
  let id := (← get).nodes.size
  modify fun u => { u with nodes := u.nodes.push ⟨meaning, content⟩ }
  return id

/-- A new node, which an anchor may name; no anchor names two nodes. -/
def name (anchor : Option Text) (meaning : Meaning) (content : Content) : Reading NodeId := do
  match anchor with
  | none => add meaning content
  | some a =>
    if (← get).anchors.any fun (known, _) => known = a then refuse
    else
      let id ← add meaning content
      modify fun u => { u with anchors := (a, id) :: u.anchors }
      return id

/-- Reads what is in a node, and puts it there. -/
def fill (id : NodeId) (read : Reading Content) : Reading NodeId := do
  if (← get).depth ≥ depthLimit then throw .tooDeep
  modify fun u => { u with depth := u.depth + 1 }
  let content ← read
  modify fun u => { u with
    depth := u.depth - 1
    nodes := u.nodes.modify id fun n => { n with content } }
  return id

def absent : Reading NodeId := add .null (.scalar [])

/-- What stands in front of a node. -/
structure Properties where
  anchor : Option Text := none
  /-- The tag in full. -/
  tag : Option Text := none

/-- The anchor and the tag in front of a node, in either order. -/
def properties : Reading Properties := do
  let anchor? : Reading (Option Text) := do
    match ← peek with
    | some (.anchor name) => take; return some name
    | _ => return none
  let tag? : Reading (Option Tag) := do
    match ← peek with
    | some (.tag tag) => take; return some tag
    | _ => return none
  let (anchor, tag) ←
    match ← anchor? with
    | some name => pure (some name, ← tag?)
    | none =>
      match ← tag? with
      | some tag => pure (← anchor?, some tag)
      | none => pure (none, none)
  match tag with
  | none => return ⟨anchor, none⟩
  | some tag => return ⟨anchor, some (← tag.inFull (← get).handles)⟩

/-- The meaning that a tag gives; without a tag, and with the tag that says nothing, it is another
one. -/
def meaningOf (tag : Option Text) (otherwise : Meaning) : Meaning :=
  match tag with
  | none => otherwise
  | some t => if t = "!" then otherwise else .ofTag t

/-- The meaning of a scalar. The tag that says nothing makes it be read by its shape, also in
quotes. -/
def scalarMeaning (tag : Option Text) (isPlain : Bool) (t : Text) : Meaning :=
  if tag.isSome || isPlain then meaningOf tag (.ofPlain t) else .text

/-- Whether the next token ends an entry by indentation. -/
def endsEntry (inMapping : Bool) : Option Token → Bool
  | some .blockEnd => true
  | some .item => !inMapping
  | some .key | some .value => inMapping
  | _ => false

mutual

/-- A node. Outside of brackets it may be a list or mapping by indentation, and as a value of a
mapping also a list whose dashes are indented no deeper than the key (`atKey`). -/
def node (inBrackets atKey : Bool) : Nat → Reading NodeId
  | 0 => refuse
  | fuel + 1 => do
    match ← peek with
    | some (.alias a) =>
      take
      match (← get).anchors.find? fun (known, _) => known = a with
      | some (_, id) => return id
      | none => refuse
    | _ =>
      let p ← properties
      let list : Reading NodeId := name p.anchor (meaningOf p.tag .list) (.list [])
      let mapping : Reading NodeId := name p.anchor (meaningOf p.tag .mapping) (.mapping [])
      match ← peek with
      | some .item =>
        if atKey then fill (← list) (.list <$> siblings fuel) else emptyNode p
      | some (.scalar isPlain t) =>
        take
        name p.anchor (scalarMeaning p.tag isPlain t) (.scalar t)
      | some .listStart =>
        take
        fill (← list) (.list <$> bracketItems true fuel)
      | some .mappingStart =>
        take
        fill (← mapping) (.mapping <$> bracketPairs true fuel)
      | some .blockList =>
        if inBrackets then emptyNode p
        else
          take
          fill (← list) (.list <$> blockItems fuel)
      | some .blockMapping =>
        if inBrackets then emptyNode p
        else
          take
          fill (← mapping) (.mapping <$> blockPairs fuel)
      | _ => emptyNode p
where
  /-- A node of which only its anchor or its tag is there. -/
  emptyNode (p : Properties) : Reading NodeId :=
    if p.anchor.isSome || p.tag.isSome then name p.anchor (scalarMeaning p.tag true []) (.scalar [])
    else refuse

/-- The items of a list by indentation, with its end. -/
def blockItems : Nat → Reading (List NodeId)
  | 0 => refuse
  | fuel + 1 => do
    match ← peek with
    | some .item =>
      take
      let next ← peek
      let n ← if endsEntry false next then absent else node false false fuel
      return n :: (← blockItems fuel)
    | some .blockEnd => take; return []
    | _ => refuse

/-- The items of a list whose dashes are indented like the key it belongs to. -/
def siblings : Nat → Reading (List NodeId)
  | 0 => refuse
  | fuel + 1 => do
    match ← peek with
    | some .item =>
      take
      let next ← peek
      let n ←
        if endsEntry false next || endsEntry true next then absent else node false false fuel
      return n :: (← siblings fuel)
    | _ => return []

/-- The entries of a mapping by indentation, with its end. -/
def blockPairs : Nat → Reading (List (NodeId × NodeId))
  | 0 => refuse
  | fuel + 1 => do
    match ← peek with
    | some .key =>
      take
      let next ← peek
      let key ← if endsEntry true next then absent else node false true fuel
      let value ←
        match ← peek with
        | some .value => do
          take
          let next ← peek
          if endsEntry true next then absent else node false true fuel
        | _ => absent
      return (key, value) :: (← blockPairs fuel)
    | some .blockEnd => take; return []
    | _ => refuse

/-- The items of a list in brackets, with its end. An item with a colon is a mapping of its own. -/
def bracketItems (isFirst : Bool) : Nat → Reading (List NodeId)
  | 0 => refuse
  | fuel + 1 => do
    match ← peek with
    | some .listEnd => take; return []
    | some .comma => if isFirst then refuse else take
    | _ => if isFirst then pure () else refuse
    match ← peek with
    | some .listEnd => take; return []
    | some .key =>
      take
      let key ←
        match ← peek with
        | some .value | some .comma | some .listEnd => absent
        | _ => node true false fuel
      let value ←
        match ← peek with
        | some .value => do
          take
          match ← peek with
          | some .comma | some .listEnd => absent
          | _ => node true false fuel
        | _ => absent
      let pair ← add .mapping (.mapping [(key, value)])
      return pair :: (← bracketItems false fuel)
    | _ =>
      let n ← node true false fuel
      return n :: (← bracketItems false fuel)

/-- The entries of a mapping in brackets, with its end. -/
def bracketPairs (isFirst : Bool) : Nat → Reading (List (NodeId × NodeId))
  | 0 => refuse
  | fuel + 1 => do
    match ← peek with
    | some .mappingEnd => take; return []
    | some .comma => if isFirst then refuse else take
    | _ => if isFirst then pure () else refuse
    match ← peek with
    | some .mappingEnd => take; return []
    | some .key =>
      take
      let key ←
        match ← peek with
        | some .value | some .comma | some .mappingEnd => absent
        | _ => node true false fuel
      let value ←
        match ← peek with
        | some .value => do
          take
          match ← peek with
          | some .comma | some .mappingEnd => absent
          | _ => node true false fuel
        | _ => absent
      return (key, value) :: (← bracketPairs false fuel)
    | _ =>
      let key ← node true false fuel
      return (key, ← absent) :: (← bracketPairs false fuel)

end

/-- The directives in front of a document: the version of the language at most once and the handles
of tags, each at most once. -/
def directives (sawVersion : Bool) : Nat → Reading Unit
  | 0 => refuse
  | fuel + 1 => do
    match ← peek with
    | some (.version major) =>
      take
      if sawVersion || major ≠ 1 then refuse else directives true fuel
    | some (.handle handle start) =>
      take
      if (← get).handles.any fun (known, _) => known = handle then refuse
      else
        modify fun u => { u with handles := (handle, start) :: u.handles }
        directives sawVersion fuel
    | some .otherDirective => take; directives sawVersion fuel
    | _ => return ()

/-- The root of a document behind the mark that starts it, if one does. It may be absent there. -/
def root : Reading NodeId := do
  let count := (← get).tokens.length
  let node := node false false (3 * count + 3)
  match ← peek with
  | some .documentStart | some (.version _) | some (.handle _ _) | some .otherDirective =>
    directives false (count + 1)
    match ← peek with
    | some .documentStart =>
      take
      modify fun u => { u with handles := u.handles ++ Tag.ownHandles }
      match ← peek with
      | none | some .documentStart | some .documentEnd | some (.version _) | some (.handle _ _)
      | some .otherDirective => absent
      | _ => node
    | _ => refuse
  | _ =>
    modify fun u => { u with handles := Tag.ownHandles }
    node

/-- Over the marks of ended documents. -/
def dropEnds : Nat → Reading Unit
  | 0 => return ()
  | fuel + 1 => do
    match ← peek with
    | some .documentEnd => take; dropEnds fuel
    | _ => return ()

/-- The root of the only document, if there is a document. -/
def onlyRoot : Reading (Option NodeId) := do
  match ← peek with
  | none => return none
  | some _ =>
    let id ← root
    let count := (← get).tokens.length + 1
    dropEnds count
    match ← peek with
    | none => return some id
    | some _ =>
      modify fun u => { u with handles := [] }
      directives false count
      let _ ← peek
      refuse

end Node

/-- The nodes of a document. -/
structure Graph where
  nodes : Array Node
  root : NodeId

/-- The nodes of the only document of some tokens, if there is a document. -/
def Graph.ofTokens? (tokens : List Token) (flaw : Option Flaw) : Except Flaw (Option Graph) := do
  let (root, u) ← Node.onlyRoot.run { tokens, flaw }
  return root.map fun root => ⟨u.nodes, root⟩

end IndexChain.Yaml
