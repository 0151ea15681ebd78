import IndexChain.Text.Base64
import IndexChain.Yaml.Merge
import IndexChain.Yaml.Number

/-!
# Objects of a YAML document

Scalars are values as soon as they are met. A list or mapping becomes an object that is filled
later: objects are filled in the order in which they were met, so what is wrong at a lesser depth of
a document is found before what is wrong deeper in it, and a node may stand inside itself.

A value of the document is read off the filled objects. Where an object is inside itself it is
repeated a few times and then left empty.
-/

namespace IndexChain.Yaml

/-- What a node became. -/
inductive Item
  | value (v : Value)
  /-- The object of a number. -/
  | object (index : Nat)

/-- A list or mapping. -/
inductive Object
  | list (items : List Item)
  /-- A list of pairs. -/
  | entries (pairs : List (Item × Item))
  | set (members : List Value)
  | mapping (pairs : List (Value × Item))

namespace Object

/-! ## 1. Making objects -/

/-- A document part of which was made into objects. -/
structure Making where
  graph : Graph
  objects : Array Object := Array.empty
  /-- What nodes became. -/
  made : List (NodeId × Item) := []
  /-- The objects that are to be filled, with their nodes, the last one first. -/
  waiting : List (NodeId × Nat) := []

/-- A step of making objects. -/
abbrev Make := StateT Making (Except Flaw)

def scalarValue (meaning : Meaning) (t : Text) : Except Flaw Value :=
  match meaning with
  | .null => .ok .null
  | .bool => (boolOf t).map .bool
  | .integer => (integerOf t).map .int
  | .decimal => (decimalOf t).map .float
  | .timestamp => dateOf t
  | .binary =>
    if t.all CodePoint.isAscii then
      match Text.ofBase64? t with
      | some content => .ok (.bytes content)
      | none => .error .malformed
    else .error .malformed
  | .text => .ok (.text t)
  | _ => .error .malformed

/-- The value of a node as a scalar. A date has to be a scalar itself. -/
def scalarOf (g : Graph) (id : NodeId) : Except Flaw Value := do
  let meaning := (g.at_ id).meaning
  match meaning with
  | .merge | .default | .unknown => throw .malformed
  | _ => pure ()
  let t ← g.scalarText (g.nodes.size + 1) id
  if meaning = .timestamp && g.isMapping id then throw .notScalar
  else scalarValue meaning t

/-- The object of a meaning before it is filled. -/
def empty? : Meaning → Option Object
  | .list => some (.list [])
  | .entries => some (.entries [])
  | .set => some (.set [])
  | .mapping => some (.mapping [])
  | _ => none

/-- What a node becomes; a node that was met before became something already. -/
def make (id : NodeId) : Make Item := do
  let m ← get
  match m.made.find? fun (known, _) => known == id with
  | some (_, item) => return item
  | none =>
    let item ←
      match empty? (m.graph.at_ id).meaning with
      | some o => do
        let index := m.objects.size
        modify fun m => { m with objects := m.objects.push o, waiting := (id, index) :: m.waiting }
        pure (.object index)
      | none => .value <$> scalarOf m.graph id
    modify fun m => { m with made := (id, item) :: m.made }
    return item

/-! ## 2. Filling objects -/

def itemsOf : Content → Make (List Item)
  | .list items => items.mapM make
  | _ => throw .malformed

/-- The pair of a mapping with one entry. -/
def pairOf (id : NodeId) : Make (Item × Item) := do
  match (← get).graph.pairs id with
  | [(k, v)] => return (← make k, ← make v)
  | _ => throw .malformed

/-- The pairs of a list of mappings with one entry each. -/
def entriesOf : Content → Make (List (Item × Item))
  | .list items => items.mapM pairOf
  | _ => throw .malformed

/-- The entries of a mapping, one set after the other. Lists and mappings cannot be keys. -/
def setPairs (acc : List (Value × Item)) : List (NodeId × NodeId) → Make (List (Value × Item))
  | [] => return acc
  | (k, v) :: rest => do
    match ← make k with
    | .object _ => throw .malformed
    | .value key => setPairs (Value.setKey key (← make v) acc) rest

/-- The entries of a mapping with all merging done. -/
def pairsOf (id : NodeId) : Make (List (Value × Item)) := do
  let g := (← get).graph
  if g.isMapping id then
    let g ← g.merged id
    modify fun m => { m with graph := g }
    setPairs [] (g.pairs id)
  else throw .malformed

def filled (id : NodeId) : Object → Make Object
  | .list _ => do return .list (← itemsOf ((← get).graph.at_ id).content)
  | .entries _ => do return .entries (← entriesOf ((← get).graph.at_ id).content)
  | .set _ => do return .set ((← pairsOf id).map Prod.fst)
  | .mapping _ => do return .mapping (← pairsOf id)

/-- Fills an object. -/
def fill (id : NodeId) (index : Nat) : Make Unit := do
  match (← get).objects[index]? with
  | none => return ()
  | some o =>
    let o ← filled id o
    modify fun m => { m with objects := m.objects.modify index fun _ => o }

/-- Fills all objects, those first that were met first. Every object is filled once, and no node
becomes two objects, so their number bounds the rounds. -/
def fillAll : Nat → Make Unit
  | 0 => return ()
  | rounds + 1 => do
    match (← get).waiting with
    | [] => return ()
    | waiting =>
      modify fun m => { m with waiting := [] }
      waiting.reverse.forM fun (id, index) => fill id index
      fillAll rounds

/-! ## 3. Values -/

/-- How often an object is repeated inside itself. -/
def repetitions : Nat := 3

/-- The values of objects that are not inside themselves, as far as they are known. -/
abbrev Known := Array (Option Value)

/-- The value of an item, and whether an object in it was left empty. `around` are the objects
around the item. -/
def valueOf (objects : Array Object) (around : List Nat) : Nat → Item → StateM Known (Value × Bool)
  | _, .value v => return (v, false)
  | 0, .object _ => return (.null, true)
  | fuel + 1, .object index => do
    match (← get)[index]?.join with
    | some v => return (v, false)
    | none =>
      let inside := valueOf objects (index :: around) fuel
      let isRepeated := repetitions ≤ around.count index
      let anyCut (read : List (Value × Bool)) : Bool := read.any Prod.snd
      let (v, isCut) ←
        match objects[index]?.getD (.list []) with
        | .list items => do
          if isRepeated then return (.list [], true)
          let vs ← items.mapM inside
          pure (Value.list (vs.map Prod.fst), anyCut vs)
        | .entries pairs => do
          if isRepeated then return (.list [], true)
          let ks ← pairs.mapM fun (k, _) => inside k
          let vs ← pairs.mapM fun (_, v) => inside v
          pure (Value.list ((ks.zip vs).map fun ((k, _), (v, _)) => .list [k, v]),
            anyCut ks || anyCut vs)
        | .set members => pure (Value.set members, false)
        | .mapping pairs => do
          if isRepeated then return (.mapping [], true)
          let vs ← pairs.mapM fun (_, v) => inside v
          pure (Value.mapping ((pairs.map Prod.fst).zip (vs.map Prod.fst)), anyCut vs)
      if !isCut then modify fun known => known.modify index fun _ => some v
      return (v, isCut)

end Object

/-- The value of a document. -/
def Graph.value (g : Graph) : Except Flaw Value := do
  let making : Object.Make Item := do
    let item ← Object.make g.root
    Object.fillAll (g.nodes.size + 1)
    return item
  let (item, m) ← making.run { graph := g }
  let known : Object.Known := Array.replicate m.objects.size none
  let fuel := (Object.repetitions + 1) * m.objects.size + 1
  return ((Object.valueOf m.objects [] fuel item).run known).1.1

end IndexChain.Yaml
