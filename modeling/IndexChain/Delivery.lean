import IndexChain.Depot

/-!
# Deliveries

A delivery hands out the chunks of a plan one after the other, each opened only when it is asked
for. At most one chunk is live: asking for the next one closes it first, and the last chunk stays
open until the delivery is closed. When switching to a chunk fails, the delivery is over and nothing
is tried again, so no chunk is ever skipped.
-/

namespace IndexChain

/-- How far a delivery is. -/
inductive Delivery.Stage
  /-- Nothing was handed out yet. -/
  | idle
  /-- There is more to hand out. -/
  | iterating
  /-- There is nothing more. -/
  | exhausted
  /-- Switching to a chunk failed. -/
  | failed
deriving DecidableEq, Inhabited

/-- A delivery of chunks. -/
structure Delivery where
  /-- The names of the chunks that are still to be opened, in order. -/
  pending : List Text
  /-- The number of chunks handed out. -/
  delivered : Nat
  /-- The chunk that is live. -/
  current : Option Chunk
  stage : Delivery.Stage
deriving Inhabited

namespace Delivery

variable {σ : Type} (D : Depots σ)

/-- The stage's name in reports. -/
def Stage.name : Stage → String
  | idle => "idle"
  | iterating => "iterating"
  | exhausted => "exhausted"
  | failed => "failed"

/-- A delivery of the chunks with the given names. -/
def ofNames (names : List Text) : Delivery :=
  ⟨names, 0, none, if names.isEmpty then .exhausted else .idle⟩

/-- Whether another chunk can be asked for. Asking this opens nothing. -/
def hasNext (d : Delivery) : Bool := d.stage ≠ .failed && !d.pending.isEmpty

/-- Closes the live chunk, if there is one; if that fails the chunk is not live any more all the
same. -/
def dropCurrent : Run (Delivery × σ) Unit := fun (d, w) =>
  match d.current with
  | none => (.ok (), d, w)
  | some chunk =>
    let (outcome, w) := D.shut chunk.stream w
    (outcome, { d with current := none }, w)

/-- The delivery after switching to a chunk failed. -/
def giveUp (name : Text) (fault : Fault) : Run (Delivery × σ) Chunk := fun (d, w) =>
  let d := { d with stage := .failed }
  if fault.isIo then
    let record := Record.ofPart .warning "sequencer" "Failed to open index chunk"
      [("chunk", .text name), ("error", .text fault.message)]
    (.error (.chunkUnavailable name (some fault)), d, D.note record w)
  else (.error fault, d, w)

/-- Closes the live chunk and opens the next one. -/
def next : Run (Delivery × σ) Chunk := fun (d, w) =>
  if d.stage = .failed then (.error .exhausted, d, w)
  else
    match d.pending with
    | [] => (.error .exhausted, d, w)
    | name :: rest =>
      match dropCurrent D (d, w) with
      | (.error fault, s) => giveUp D name fault s
      | (.ok (), d, w) =>
        match D.fetch .remote name w with
        | (.error fault, w) => giveUp D name fault (d, w)
        | (.ok stream, w) =>
          let chunk : Chunk := ⟨name, stream⟩
          let d : Delivery :=
            ⟨rest, d.delivered + 1, some chunk, if rest.isEmpty then .exhausted else .iterating⟩
          let record := Record.ofPart .debug "sequencer" "Opened index chunk"
            [("chunk", .text name), ("position", .int d.delivered)]
          (.ok chunk, d, D.note record w)

/-- Closes the live chunk and ends the delivery; if the chunk cannot be closed, the delivery goes on
from where it was. -/
def close : Run (Delivery × σ) Unit := fun (d, w) =>
  match dropCurrent D (d, w) with
  | (.error fault, d, w) => (.error fault, d, w)
  | (.ok (), d, w) =>
    if d.stage = .failed then (.ok (), d, w)
    else (.ok (), { d with pending := [], stage := .exhausted }, w)

end Delivery

end IndexChain
