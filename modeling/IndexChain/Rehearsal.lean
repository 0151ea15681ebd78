import IndexChain.Depot
import IndexChain.Pairs

/-!
# Rehearsals

Places for a session that keep their resources in memory, fail where a script tells them to, and
record what is done to them. They serve to go through a session's behaviour under failures.

A place that was released goes on working; only the record shows that it was.
-/

namespace IndexChain

/-- A fault that a script can call for. -/
inductive ScriptedFault
  | io (kind : IoKind)
  | internal
  | invalidValue
  | missingKey
  | closed
  | interrupted
  | exhausted
deriving DecidableEq

/-- The fault with a message, where it carries one. -/
def ScriptedFault.fault (message : Text) : ScriptedFault → Fault
  | io kind => .io kind message
  | internal => .internal (some message)
  | invalidValue => .invalidValue (some message)
  | missingKey => .missingKey message
  | closed => .closed message
  | interrupted => .interrupted
  | exhausted => .exhausted

namespace Rehearsal

/-- The resources of a place and the faults to come. -/
structure Place where
  resources : List (Text × Bytes) := []
  /-- By name: opening fails. -/
  failOpen : List (Text × ScriptedFault) := []
  /-- By name: the first attempt to close a stream fails and leaves it open. -/
  failClose : List (Text × ScriptedFault) := []
  /-- By name: reading fails, also from a closed stream. -/
  failRead : List (Text × ScriptedFault) := []
  /-- Storing fails. -/
  failStore : Option ScriptedFault := none
  /-- Releasing fails, after it was recorded. -/
  failRelease : Option ScriptedFault := none
  released : Bool := false

/-- What was done. -/
inductive Act
  | opened
  | closed
  | stored
  | released
deriving DecidableEq

/-- A record of what was done, where, to which resource. -/
structure Event where
  side : Side
  act : Act
  name : Text
deriving DecidableEq

/-- A stream that was opened. -/
structure Stream where
  side : Side
  name : Text
  /-- What is left to read. -/
  left : Bytes
  failClose : Option ScriptedFault
  failRead : Option ScriptedFault
  closed : Bool := false

end Rehearsal

/-- Both places, the streams opened so far and the record. -/
structure Rehearsal where
  remote : Rehearsal.Place := {}
  copy : Rehearsal.Place := {}
  streams : List Rehearsal.Stream := []
  /-- What was done, the first thing first. -/
  events : List Rehearsal.Event := []

namespace Rehearsal

def place (r : Rehearsal) : Side → Place
  | .remote => r.remote
  | .copy => r.copy

/-- Changes one of the places. -/
def setPlace (r : Rehearsal) (side : Side) (p : Place) : Rehearsal :=
  match side with
  | .remote => { r with remote := p }
  | .copy => { r with copy := p }

/-- Records an event. -/
def record (r : Rehearsal) (side : Side) (act : Act) (name : Text) : Rehearsal :=
  { r with events := r.events ++ [⟨side, act, name⟩] }

def openCount (r : Rehearsal) : Nat := (r.streams.filter fun s => !s.closed).length

/-- Opens a resource. -/
def fetch (side : Side) (name : Text) : Run Rehearsal StreamId := fun r =>
  let p := r.place side
  match Pairs.get? name p.failOpen with
  | some f => (.error (f.fault ("cannot open " ++ name)), r)
  | none =>
    match Pairs.get? name p.resources with
    | none => (.error (.io .notFound name), r)
    | some content =>
      let stream : Stream :=
        ⟨side, name, content, Pairs.get? name p.failClose, Pairs.get? name p.failRead, false⟩
      (.ok r.streams.length,
        ({ r with streams := r.streams ++ [stream] }).record side .opened name)

def read (i : StreamId) (size : Option Nat) : Run Rehearsal Bytes := fun r =>
  match r.streams[i]? with
  | none => (.error (.invalidValue none), r)
  | some s =>
    match s.failRead with
    | some f => (.error (f.fault ("cannot read " ++ s.name)), r)
    | none =>
      if s.closed then (.error (.invalidValue none), r)
      else
        let n := size.getD s.left.length
        (.ok (s.left.take n),
          { r with streams := r.streams.set i { s with left := s.left.drop n } })

/-- Closes a stream. -/
def shut (i : StreamId) : Run Rehearsal Unit := fun r =>
  match r.streams[i]? with
  | none => (.ok (), r)
  | some s =>
    if s.closed then (.ok (), r)
    else
      match s.failClose with
      | some f =>
        (.error (f.fault ("cannot close " ++ s.name)),
          { r with streams := r.streams.set i { s with failClose := none } })
      | none =>
        (.ok (), ({ r with streams := r.streams.set i { s with closed := true } }).record
          s.side .closed s.name)

/-- Whether a stream is closed. -/
def isShut (i : StreamId) (r : Rehearsal) : Bool :=
  match r.streams[i]? with
  | none => true
  | some s => s.closed

/-- Stores a resource in the copy. -/
def store (name : Text) (content : Bytes) : Run Rehearsal Unit := fun r =>
  match r.copy.failStore with
  | some f => (.error (f.fault ("cannot save " ++ name)), r)
  | none =>
    let copy := { r.copy with resources := Pairs.set name content r.copy.resources }
    (.ok (), ({ r with copy }).record .copy .stored name)

/-- Releases a place. -/
def release (side : Side) : Run Rehearsal Unit := fun r =>
  let p := r.place side
  let r := (r.setPlace side { p with released := true }).record side .released []
  match p.failRelease with
  | some f => (.error (f.fault "cannot close handler"), r)
  | none => (.ok (), r)

/-- The operations of a rehearsal. Log records are not kept. -/
def depots : Depots Rehearsal where
  fetch := fetch
  read := read
  shut := shut
  isShut := isShut
  store := store
  release := release
  note _ r := r

end Rehearsal

end IndexChain
