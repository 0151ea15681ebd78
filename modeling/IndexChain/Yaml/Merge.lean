import IndexChain.Yaml.Node

/-!
# Merging

A mapping may take over the entries of others under the key for merging. Those entries come in front
of its own, so that its own win, and of several mappings in a list the first one wins. Merging is
done in place: whoever holds the number of a mapping sees what was merged into it, and a mapping may
even be merged into itself.

Every merge takes a key for merging out of the graph and brings none into it, so their number bounds
how often merging can go on.
-/

namespace IndexChain.Yaml.Graph

/-- A node of which nothing is known. -/
def unknown : Node := ⟨.unknown, .scalar []⟩

def at_ (g : Graph) (id : NodeId) : Node := g.nodes[id]?.getD unknown

/-- The entries of a mapping. -/
def pairs (g : Graph) (id : NodeId) : List (NodeId × NodeId) :=
  match (g.at_ id).content with
  | .mapping pairs => pairs
  | _ => []

def isMapping (g : Graph) (id : NodeId) : Bool :=
  match (g.at_ id).content with
  | .mapping _ => true
  | _ => false

/-- The graph with the entries of a mapping. -/
def setPairs (g : Graph) (id : NodeId) (pairs : List (NodeId × NodeId)) : Graph :=
  { g with nodes := g.nodes.modify id fun n => { n with content := .mapping pairs } }

/-- The key of a mapping's own value is a text like others from now on. -/
def settleKey (g : Graph) (key : NodeId) : Graph :=
  if (g.at_ key).meaning = .default then
    { g with nodes := g.nodes.modify key fun n => { n with meaning := .text } }
  else g

/-- The mapping under the first key for merging, and the other entries. -/
def takeMerge (g : Graph) : List (NodeId × NodeId) → Option (NodeId × List (NodeId × NodeId))
  | [] => none
  | (k, v) :: rest =>
    if (g.at_ k).meaning = .merge then some (v, rest)
    else (takeMerge g rest).map fun (found, rest) => (found, (k, v) :: rest)

/-- The mappings that a node under a key for merging stands for. -/
def sources (g : Graph) (id : NodeId) : Except Flaw (List NodeId) :=
  match (g.at_ id).content with
  | .mapping _ => .ok [id]
  | .list items => if items.all g.isMapping then .ok items else .error .malformed
  | .scalar _ => .error .malformed

/-- The graph with all merging done in a mapping, into which some entries were brought already. -/
def mergeInto (id : NodeId) (brought : List (NodeId × NodeId)) : Nat → Graph → Except Flaw Graph
  | 0, _ => .error .malformed
  | fuel + 1, g =>
    match g.takeMerge (g.pairs id) with
    | none =>
      let own := g.pairs id
      .ok (own.foldl (fun g (k, _) => g.settleKey k) (g.setPairs id (brought ++ own)))
    | some (v, rest) => do
      let g := g.setPairs id rest
      let sources ← g.sources v
      let g ← sources.foldlM (fun g source => mergeInto source [] fuel g) g
      mergeInto id (brought ++ (sources.reverse.map g.pairs).flatten) fuel g

/-- The number of entries of all mappings. -/
def pairCount (g : Graph) : Nat :=
  g.nodes.foldl (fun count n => match n.content with
    | .mapping pairs => count + pairs.length
    | _ => count) 0

/-- The graph with all merging done in a mapping. -/
def merged (g : Graph) (id : NodeId) : Except Flaw Graph := mergeInto id [] (g.pairCount + 1) g

/-- The text of a scalar. A mapping stands for its own value here, if it has one; one that is its
own value has no end. -/
def scalarText (g : Graph) : Nat → NodeId → Except Flaw Text
  | 0, _ => .error .tooDeep
  | fuel + 1, id =>
    match (g.at_ id).content with
    | .scalar t => .ok t
    | .list _ => .error .malformed
    | .mapping pairs =>
      match pairs.find? fun (k, _) => (g.at_ k).meaning = .default with
      | some (_, v) => scalarText g fuel v
      | none => .error .malformed

end IndexChain.Yaml.Graph
