import IndexChain.Depot
import IndexChain.Storage.Disk
import IndexChain.Storage.Memory
import IndexChain.Text.Control

/-!
# Workspaces

A workspace is all that a command reads and changes: the disk, the files in memory, the handles and
streams it opened, its log and what it printed. A handle gives access to the resources of a location
until it is closed.

A stream from the disk shows what the file holds when it is read, and a stream from memory what the
file held when it was opened. The difference shows where a file is stored in place of the one it is
read from: a file is emptied before its new content is asked for.
-/

namespace IndexChain

/-- Access to a location. -/
structure Handle where
  location : Location
  closed : Bool := false
deriving Inhabited

/-- The number by which a handle is known. -/
abbrev HandleId := Nat

namespace Workspace

/-- Where a stream reads. -/
inductive Source
  | disk (place : Disk.Place)
  | memory (content : Bytes)

/-- A stream that was opened. -/
structure Stream where
  source : Source
  /-- The bytes read so far. -/
  position : Nat := 0
  closed : Bool := false

end Workspace

/-- What a command reads and changes. -/
structure Workspace where
  disk : Disk
  memory : Memory := {}
  handles : List Handle := []
  streams : List Workspace.Stream := []
  /-- The log, the first record first. -/
  journal : List Record := []
  /-- The lines for whoever uses the result, the first one first. -/
  printed : List Text := []
  /-- The lines about what went wrong, the first one first. -/
  complaints : List Text := []

namespace Workspace

/-! ## 1. Parts of a workspace -/

def onDisk {α : Type} (step : Run Disk α) : Run Workspace α := fun w =>
  let (outcome, disk) := step w.disk
  (outcome, { w with disk })

/-- A step on the files in memory. -/
def onMemory {α : Type} (step : Run Memory α) : Run Workspace α := fun w =>
  let (outcome, memory) := step w.memory
  (outcome, { w with memory })

/-- Keeps a log record. -/
def note (r : Record) (w : Workspace) : Workspace := { w with journal := w.journal ++ [r] }

/-- Prints a line, without what would control a terminal. -/
def print (line : Text) : Run Workspace Unit := Run.change fun w =>
  { w with printed := w.printed ++ [line.withoutControl] }

/-- Prints a line about what went wrong, without what would control a terminal. -/
def complain (line : Text) : Run Workspace Unit := Run.change fun w =>
  { w with complaints := w.complaints ++ [line.withoutControl] }

/-! ## 2. Handles -/

def openHandle (location : Location) : Run Workspace HandleId := fun w =>
  (.ok w.handles.length, { w with handles := w.handles ++ [{ location }] })

def closeHandle (h : HandleId) : Run Workspace Unit := Run.change fun w =>
  match w.handles[h]? with
  | none => w
  | some handle => { w with handles := w.handles.set h { handle with closed := true } }

/-- The fault of using a handle after its end. -/
def handleIsClosed (location : Location) : Fault :=
  .closed ("Resource handler for " ++ location.text ++ " is closed")

/-- The location of a resource, for which the handle has to be open; it is logged what is done with
the resource. -/
def resource (h : HandleId) (name : Text) (event : String) : Run Workspace Location := fun w =>
  match w.handles[h]? with
  | none => (.error (.internal none), w)
  | some handle =>
    if handle.closed then (.error (handleIsClosed handle.location), w)
    else
      match handle.location.child name with
      | .error fault => (.error fault, w)
      | .ok location =>
        (.ok location, w.note (.ofPart .debug "resources" event [("path", .text location.text)]))

/-! ## 3. Streams -/

/-- Where a stream from a location reads. -/
def sourceOf (w : Workspace) : Location → Except Fault Source
  | .disk path => (w.disk.openFile path).map .disk
  | .memory path => (w.memory.readFile path.place).map .memory

/-- Opens a resource for reading. -/
def fetch (h : HandleId) (name : Text) : Run Workspace StreamId := do
  let location ← resource h name "Opening resource"
  fun w =>
    match w.sourceOf location with
    | .error fault => (.error fault, w)
    | .ok source => (.ok w.streams.length, { w with streams := w.streams ++ [{ source }] })

/-- What a source holds now. -/
def held (w : Workspace) : Source → Bytes
  | .disk place => w.disk.contentAt place
  | .memory content => content

/-- Reads a number of bytes from a stream, or all that are left. -/
def read (i : StreamId) (size : Option Nat) : Run Workspace Bytes := fun w =>
  match w.streams[i]? with
  | none => (.error (.invalidValue none), w)
  | some s =>
    if s.closed then (.error (.invalidValue none), w)
    else
      let left := (w.held s.source).drop s.position
      let taken := left.take (size.getD left.length)
      let s := { s with position := s.position + taken.length }
      (.ok taken, { w with streams := w.streams.set i s })

/-- Closes a stream. -/
def shut (i : StreamId) : Run Workspace Unit := Run.change fun w =>
  match w.streams[i]? with
  | none => w
  | some s => { w with streams := w.streams.set i { s with closed := true } }

/-- Whether a stream is closed. -/
def isShut (i : StreamId) (w : Workspace) : Bool :=
  match w.streams[i]? with
  | none => true
  | some s => s.closed

/-! ## 4. Storing -/

/-- Makes an empty file at a location, with the directories above it, and answers how to write
it. -/
def begin (location : Location) : Run Workspace (Bytes → Workspace → Workspace) :=
  match location with
  | .disk path => do
    onDisk (Disk.ensureDirectories path.parent)
    let place ← onDisk (Disk.truncate path)
    return fun content w => { w with disk := w.disk.put place content }
  | .memory path => do
    onMemory (Memory.ensureDirectories path.parent)
    onMemory (Memory.truncate path.place)
    return fun content w => { w with memory := w.memory.put path.place content }

/-- Stores a resource in place of the one that may be there. The file is emptied before its content
is asked for. -/
def save (h : HandleId) (name : Text) (content : Run Workspace Bytes) : Run Workspace Unit := do
  let location ← resource h name "Saving resource"
  let write ← begin location
  let bytes ← content
  Run.change (write bytes)

/-! ## 5. Sessions -/

/-- The operations of a session between two handles. -/
def depots (remote : HandleId) (copy : Option HandleId) : Depots Workspace where
  fetch
    | .remote, name => Workspace.fetch remote name
    | .copy, name =>
      match copy with
      | some h => Workspace.fetch h name
      | none => Run.fail (.internal none)
  read := read
  shut := shut
  isShut := isShut
  store name content :=
    match copy with
    | some h => save h name (Run.done content)
    | none => Run.fail (.internal none)
  release
    | .remote => closeHandle remote
    | .copy =>
      match copy with
      | some h => closeHandle h
      | none => Run.done ()
  note := note

end Workspace

end IndexChain
