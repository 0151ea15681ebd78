import IndexChain.Depot
import IndexChain.Manifest

/-!
# Handover

The end of a session whose chunks have all been applied: the published manifest becomes the copy's,
so that the next session starts from there. The remote place is released first; the copy is released
whatever happens.
-/

namespace IndexChain.Handover

variable {σ : Type} (D : Depots σ)

/-- The comment in stored manifests where no other is given. -/
def defaultComment : Text := "Maven Indexer Reader"

/-- Stores the published manifest in the copy. -/
def record (published : Manifest) (comment : Option Text) (now : Moment) : Run σ Unit := do
  match published.entries.toBytes? comment now with
  | none => Run.fail .unencodable
  | some content =>
    D.store Manifest.resourceName content
    D.log (.ofPart .info "finalizer" "Stored index metadata locally"
      [("index_id", .ofText? published.indexId)])

/-- Releases both places, recording the published manifest in between. Without a copy there is
nothing to record. -/
def finalize (hasCopy : Bool) (published : Manifest) (comment : Option Text) (now : Moment) :
    Run σ Unit :=
  if hasCopy then
    (do
      D.release .remote
      record D published comment now).ensure (D.release .copy)
  else D.release .remote

end IndexChain.Handover
