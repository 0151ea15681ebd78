import IndexChain.Manifest

/-!
# Plans

What has to be fetched to bring a copy up to date: the whole index, or the chunks published since.
The chunks suffice if copy and publication stand on one chain and the publication still offers the
chunk at which the copy stopped, or the one after it. Everything that stands against the chunks is a
reason to fetch the whole index, not an error; two different indexes are one, and so is a chunk
whose counter has too many digits to be written in its name.
-/

namespace IndexChain

/-- Why the chunks do not suffice. -/
inductive FullReason
  | noLocalState
  | chainMismatch
  | counterUnparsable
  | chainPruned
deriving DecidableEq

/-- What to fetch. -/
inductive Plan
  /-- The whole index. -/
  | full (reason : FullReason)
  /-- The chunks from one counter to another, none if the first is the greater. -/
  | incremental (first last : Int)
deriving DecidableEq, Inhabited

namespace FullReason

/-- The reason's name in reports. -/
def name : FullReason → String
  | noLocalState => "no_local_state"
  | chainMismatch => "chain_mismatch"
  | counterUnparsable => "counter_unparsable"
  | chainPruned => "chain_pruned"

def ofName? (t : Text) : Option FullReason :=
  [noLocalState, chainMismatch, counterUnparsable, chainPruned].find? fun r =>
    Text.ofString r.name = t

end FullReason

/-- The resource name of a chunk, whether or not its counter can be written. -/
def chunkName (counter : Int) : Text := Manifest.resourceStem ++ "." ++ Text.ofInt counter ++ ".gz"

/-- The resource name of a chunk whose counter can be written; any other is refused. -/
def chunkName? (counter : Int) : Except Fault Text :=
  if Counter.isWritable counter then .ok (chunkName counter) else .error (.invalidValue none)

namespace Plan

/-- The resource name of the whole index. -/
def fullChunkName : Text := "nexus-maven-repository-index.gz"

def isIncremental : Plan → Bool
  | full _ => false
  | incremental .. => true

/-- The plan's mode in reports. -/
def modeName : Plan → String
  | full _ => "full"
  | incremental .. => "incremental"

/-- Why the whole index is fetched, if it is. -/
def reason? : Plan → Option FullReason
  | full reason => some reason
  | incremental .. => none

/-- The counters from one to another, both included. -/
def counters (first last : Int) : List Int :=
  (List.range (last + 1 - first).toNat).map fun i => first + (i : Nat)

/-- The names of the resources to fetch, in the order in which they are to be applied. -/
def chunkNames : Plan → List Text
  | full _ => [fullChunkName]
  | incremental first last => (counters first last).map chunkName

/-- The plan with all its names written. One with a counter that cannot be written is no plan. -/
def named (plan : Plan) : Except Fault Plan :=
  match plan with
  | full _ => .ok plan
  | incremental first last => ((counters first last).mapM chunkName?).map fun _ => plan

/-- The plan for a copy of the published index. -/
def against (copy published : Manifest) : Plan :=
  if copy.chainId.isNone || copy.chainId ≠ published.chainId then .full .chainMismatch
  else
    match copy.lastIncremental, published.lastIncremental with
    | some current, some latest =>
      if current ∈ published.markers || current + 1 ∈ published.markers then
        .incremental (current + 1) latest
      else .full .chainPruned
    | _, _ => .full .counterUnparsable

def decide (copy : Option Manifest) (published : Manifest) : Except Fault Plan :=
  match copy with
  | none => .ok (.full .noLocalState)
  | some copy =>
    if copy.indexId.isNone || copy.indexId ≠ published.indexId then
      .error (.identityMismatch copy.indexId published.indexId)
    else (against copy published).named

end Plan

end IndexChain
