import IndexChain.Journal
import IndexChain.Run
import IndexChain.Text.Latin1

/-!
# Depots

A session stands between two places that keep resources under names: the remote one where the index
is published, and the local copy. It knows them only by the operations of `Depots`, any of which may
fail at any time. What the places are (directories, memory, a script of failures) is up to whoever
provides the operations on a state of their own.
-/

namespace IndexChain

/-- The two places. -/
inductive Side
  | remote
  | copy
deriving DecidableEq

/-- The number by which an opened stream is known. -/
abbrev StreamId := Nat

/-- The operations on the two places, as steps on their common state. -/
structure Depots (σ : Type) where
  /-- Opens a named resource for reading. -/
  fetch : Side → Text → Run σ StreamId
  /-- Reads a number of bytes from a stream, or all that are left. -/
  read : StreamId → Option Nat → Run σ Bytes
  /-- Closes a stream. -/
  shut : StreamId → Run σ Unit
  /-- Whether a stream is closed. -/
  isShut : StreamId → σ → Bool
  /-- Stores content under a name in the copy, in place of what is there. -/
  store : Text → Bytes → Run σ Unit
  /-- Ends the use of a place. -/
  release : Side → Run σ Unit
  /-- Keeps a log record. -/
  note : Record → σ → σ

/-- A chunk that was opened. -/
structure Chunk where
  name : Text
  stream : StreamId
deriving DecidableEq, Inhabited

namespace Depots

variable {σ : Type} (D : Depots σ)

def log (r : Record) : Run σ Unit := Run.change (D.note r)

/-- Reads a stream to its end, and closes it whatever comes of that. -/
def readAndShut (stream : StreamId) : Run σ Bytes := (D.read stream none).ensure (D.shut stream)

end Depots

namespace Chunk

variable {σ : Type} (D : Depots σ)

/-- Reads a number of bytes of the chunk, or all that are left. -/
def read (chunk : Chunk) (size : Option Nat) : Run σ Bytes := D.read chunk.stream size

def close (chunk : Chunk) : Run σ Unit := D.shut chunk.stream

/-- A body of work with the chunk, which is closed whatever comes of it. -/
def during {α : Type} (chunk : Chunk) (body : Run σ α) : Run σ α := body.ensure (chunk.close D)

end Chunk

end IndexChain
