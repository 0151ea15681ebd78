import IndexChain.Delivery
import IndexChain.Handover
import IndexChain.Plan

/-!
# Sessions

A session brings one copy up to date with one published index. What to fetch is planned once, when
the session is opened. Passes over the planned chunks can then be made, one live at a time; the
session ends by `finish`, which records the update in the copy, or by `close`, which does not.

Callers may keep every pass they were ever given, so a session holds all of them; `live` says which
one it will close before it starts another or ends.
-/

namespace IndexChain

/-- A session between a copy and a published index. -/
structure Session where
  /-- What the published index says about itself. -/
  published : Manifest
  /-- When it was published. -/
  publishedAt : Moment
  /-- What the copy says about itself, if there is one and it says anything. -/
  copy : Option Manifest
  /-- Whether there is a place for a copy. -/
  hasCopy : Bool
  /-- What to fetch. -/
  plan : Plan
  /-- The comment to record with the update. -/
  comment : Option Text
  /-- All passes, the newest last. -/
  passes : List Delivery
  /-- The pass that is closed with the session, by its place in `passes`. -/
  live : Option Nat
  closed : Bool

namespace Session

variable {σ : Type} (D : Depots σ)

/-! ## 1. Opening -/

def loadManifest (stream : StreamId) : Run σ Manifest := do
  let content ← D.readAndShut stream
  Run.ofExcept (Manifest.ofPayload (.bytes content))

/-- What the copy says about itself. A copy without a manifest says nothing. -/
def loadCopy : Run σ (Option Manifest) := fun w =>
  match D.fetch .copy Manifest.resourceName w with
  | (.ok stream, w) => (do return some (← loadManifest D stream)) w
  | (.error fault, w) =>
    if fault.isNotFound then
      (.ok none, D.note (.ofPart .info "reader" "No local index metadata, reading full index" []) w)
    else (.error fault, w)

/-- Loads what both places say, and plans the update. The time of publication is only asked for once
there is a plan. -/
def establish (hasCopy : Bool) (comment : Option Text) : Run σ Session := do
  let published ← loadManifest D (← D.fetch .remote Manifest.resourceName)
  let copy ← if hasCopy then loadCopy D else pure none
  let plan ← Run.ofExcept (Plan.decide copy published)
  D.log (.ofPart .debug "planner" "Planned index sync" [
    ("mode", .text plan.modeName),
    ("reason", .ofText? (plan.reason?.map fun r => Text.ofString r.name)),
    ("chunks", .int plan.chunkNames.length)])
  match published.publishedAt with
  | none => Run.fail (.corruptMetadata (.badTimestamp published.rawTimestamp))
  | some publishedAt =>
    D.log (.ofPart .info "reader" "Index sync planned" [
      ("index_id", .ofText? published.indexId),
      ("incremental", .bool plan.isIncremental),
      ("chunks", .int plan.chunkNames.length)])
    return ⟨published, publishedAt, copy, hasCopy, plan, comment, [], none, false⟩

/-- A session needs a remote place. -/
def missingRemote : Fault := .invalidValue (some "Remote resource handler is required")

/-! ## 2. Passes -/

/-- A step on one of the passes. -/
def onPass {α : Type} (i : Nat) (step : Run (Delivery × σ) α) : Run (Session × σ) α := fun (s, w) =>
  let (outcome, d, w) := step (s.passes[i]?.getD (.ofNames []), w)
  (outcome, { s with passes := s.passes.set i d }, w)

/-- Closes the pass that is live, if there is one; it stays live if that fails. -/
def closeLive : Run (Session × σ) Unit := fun (s, w) =>
  match s.live with
  | none => (.ok (), s, w)
  | some i =>
    match onPass i (Delivery.close D) (s, w) with
    | (.ok (), s, w) => (.ok (), { s with live := none }, w)
    | (.error fault, s, w) => (.error fault, s, w)

/-- The fault of using a session after its end. -/
def isOver : Fault := .closed "Index reader is closed"

/-- Starts a new pass over the planned chunks, and answers its place among the passes. A pass that
is live is closed first. -/
def iterate : Run (Session × σ) Nat := fun (s, w) =>
  if s.closed then (.error isOver, s, w)
  else
    let closing : Run (Session × σ) Unit :=
      match s.live with
      | none => Run.done ()
      | some i => onPass i (Delivery.close D)
    match closing (s, w) with
    | (.error fault, s, w) => (.error fault, s, w)
    | (.ok (), s, w) =>
      let i := s.passes.length
      (.ok i, { s with passes := s.passes ++ [.ofNames s.plan.chunkNames], live := some i }, w)

def next (i : Nat) : Run (Session × σ) Chunk := onPass i (Delivery.next D)

/-! ## 3. Ending -/

/-- A step on the places alone. -/
def onDepots {α : Type} (step : Run σ α) : Run (Session × σ) α := fun (s, w) =>
  let (outcome, w) := step w
  (outcome, s, w)

/-- Releases both places, the copy whatever comes of the remote one. -/
def release (hasCopy : Bool) : Run σ Unit :=
  (D.release .remote).ensure (if hasCopy then D.release .copy else Run.done ())

/-- Records the update and ends the session; an ended session is left alone. If the live chunk
cannot be closed nothing is recorded. -/
def finish (now : Moment) : Run (Session × σ) Unit := fun (s, w) =>
  if s.closed then (.ok (), s, w)
  else
    match closeLive D ({ s with closed := true }, w) with
    | (.ok (), s, w) =>
      onDepots (Handover.finalize D s.hasCopy s.published s.comment now) (s, w)
    | (.error fault, s, w) =>
      if fault.isOrdinary then
        match release D s.hasCopy w with
        | (.ok (), w) => (.error fault, s, w)
        | (.error fault, w) => (.error fault, s, w)
      else (.error fault, s, w)

/-- Ends the session without recording the update; an ended session is left alone. -/
def close : Run (Session × σ) Unit := fun (s, w) =>
  if s.closed then (.ok (), s, w)
  else (closeLive D).ensure (onDepots (release D s.hasCopy)) ({ s with closed := true }, w)

/-! ## 4. Whole runs -/

/-- Makes a new pass and hands all its chunks to a consumer. -/
def consumeAll {α : Type} (consume : Nat → Chunk → Run (Session × σ) α) :
    Run (Session × σ) (List α) := fun s =>
  match iterate D s with
  | (.error fault, s) => (.error fault, s)
  | (.ok i, s) => Run.forEach (next D i) consume (s.1.plan.chunkNames.length + 1) 0 [] s

/-- A body of work with the session: if it succeeds the session is finished, if it fails the session
is closed, and a failure to do either takes the place of the body's outcome. -/
def during {α : Type} (now : Moment) (body : Run (Session × σ) α) : Run (Session × σ) α := fun s =>
  match body s with
  | (.ok a, s) =>
    match finish D now s with
    | (.ok (), s) => (.ok a, s)
    | (.error fault, s) => (.error fault, s)
  | (.error fault, s) =>
    match close D s with
    | (.ok (), s) => (.error fault, s)
    | (.error fault, s) => (.error fault, s)

end Session

end IndexChain
