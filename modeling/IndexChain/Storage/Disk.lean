import IndexChain.Location
import IndexChain.Pairs
import IndexChain.Run
import IndexChain.Text.Latin1

/-!
# Files and directories on the disk

The disk is a map from places to files and directories. A place is the list of names from the root;
a path leads to one by walking over directories, upwards steps included, so it may fail on the way.
-/

namespace IndexChain

/-- What is at a place. -/
inductive Disk.Entry
  | directory
  | file (content : Bytes)
deriving DecidableEq

/-- A place on the disk: the names that lead to it from the root. -/
abbrev Disk.Place := List Text

/-- The files and directories of a disk. -/
structure Disk where
  /-- The directory from which paths without a root start. -/
  workplace : Disk.Place
  entries : List (Disk.Place × Disk.Entry)

namespace Disk

/-! ## 1. Failures -/

/-- The number and the words of a failure. -/
def reason : IoKind → Nat × String
  | .notFound => (2, "No such file or directory")
  | .alreadyExists => (17, "File exists")
  | .notDirectory => (20, "Not a directory")
  | .isDirectory => (21, "Is a directory")
  | .permission => (13, "Permission denied")
  | .timeout => (110, "Connection timed out")
  | .connection => (104, "Connection reset by peer")
  | .general => (36, "File name too long")

/-- The failure of an operation on a path. -/
def failure (kind : IoKind) (path : DiskPath) : Fault :=
  let (number, words) := reason kind
  .io kind ("[Errno " ++ Text.ofNat number ++ "] " ++ Text.ofString words ++ ": " ++
    path.text.quote)

/-! ## 2. Walking -/

/-- What is at a place; the root is a directory. -/
def entry? (d : Disk) (place : Place) : Option Entry :=
  if place.isEmpty then some .directory else Pairs.get? place d.entries

/-- Whether a code point stands for a byte that is no UTF-8. -/
def isRawByte (c : CodePoint) : Bool := 0xDC80 ≤ c.val && c.val ≤ 0xDCFF

/-- The bytes of a name in UTF-8. -/
def byteCount (t : Text) : Nat :=
  (t.map fun c =>
    if c.val < 0x80 || isRawByte c then 1
    else if c.val < 0x800 then 2 else if c.val < 0x10000 then 3 else 4).foldr (· + ·) 0

/-- The longest name and the longest path, in bytes. -/
def nameLimit : Nat := 255

def pathLimit : Nat := 4095

/-- Where steps lead from a directory, and what is there. Only the last place may be empty, and all
before it have to be directories. -/
def walk (d : Disk) (place : Place) : List Text → Except IoKind (Place × Option Entry)
  | [] => .ok (place, some .directory)
  | step :: rest =>
    if step = DiskPath.upwards then walk d place.dropLast rest
    else if nameLimit < byteCount step then .error .general
    else
      let below := place ++ [step]
      match d.entry? below with
      | some .directory => walk d below rest
      | some (.file content) =>
        if rest.isEmpty then .ok (below, some (.file content)) else .error .notDirectory
      | none => if rest.isEmpty then .ok (below, none) else .error .notFound

/-- Where a path leads, and what is there. -/
def locate (d : Disk) (path : DiskPath) : Except IoKind (Place × Option Entry) :=
  if pathLimit < byteCount path.text then .error .general
  else walk d (if path.root = 0 then d.workplace else []) path.steps

/-- Whether a path leads to a directory. -/
def isDirectory (d : Disk) (path : DiskPath) : Bool :=
  match d.locate path with
  | .ok (_, some .directory) => true
  | _ => false

/-- Why a path cannot be asked for at all: it has no bytes, or one of them is zero. -/
def unaskable? (path : DiskPath) : Option Fault :=
  let hasPoint (p : CodePoint → Bool) : Bool := path.steps.any fun step => step.any p
  if hasPoint fun c => c.isSurrogate && !isRawByte c then some .unencodable
  else if hasPoint fun c => c.val == 0 then some (.invalidValue none)
  else none

/-! ## 3. Files -/

/-- The place of the file to which a path leads. -/
def openFile (d : Disk) (path : DiskPath) : Except Fault Place :=
  match unaskable? path with
  | some fault => .error fault
  | none =>
    match d.locate path with
    | .error kind => .error (failure kind path)
    | .ok (_, none) => .error (failure .notFound path)
    | .ok (_, some .directory) => .error (failure .isDirectory path)
    | .ok (place, some (.file _)) => .ok place

/-- The content of the file at a place; a file that is not there has none. -/
def contentAt (d : Disk) (place : Place) : Bytes :=
  match d.entry? place with
  | some (.file content) => content
  | _ => []

/-- The content of the file to which a path leads. -/
def readFile (d : Disk) (path : DiskPath) : Except Fault Bytes := (d.openFile path).map d.contentAt

/-- The disk with a file's content at a place. -/
def put (d : Disk) (place : Place) (content : Bytes) : Disk :=
  { d with entries := Pairs.set place (.file content) d.entries }

/-- Makes an empty file, in place of the one that may be there, and answers where it is. -/
def truncate (path : DiskPath) : Run Disk Place := fun d =>
  match unaskable? path with
  | some fault => (.error fault, d)
  | none =>
    match d.locate path with
    | .error kind => (.error (failure kind path), d)
    | .ok (_, some .directory) => (.error (failure .isDirectory path), d)
    | .ok (place, _) => (.ok place, d.put place [])

/-! ## 4. Directories -/

/-- Makes a directory where nothing is. -/
def makeDirectory (d : Disk) (path : DiskPath) : Except IoKind Disk :=
  match d.locate path with
  | .error kind => .error kind
  | .ok (_, some _) => .error .alreadyExists
  | .ok (place, none) => .ok { d with entries := Pairs.set place .directory d.entries }

/-- Makes a directory unless it is there. -/
def ensureDirectory (path : DiskPath) : Run Disk Unit := fun d =>
  match d.makeDirectory path with
  | .ok d => (.ok (), d)
  | .error .notFound => (.error (failure .notFound path), d)
  | .error kind => if d.isDirectory path then (.ok (), d) else (.error (failure kind path), d)

/-- Makes a directory and all that are missing above it, unless it is there. `above` is the number
of steps of the path. -/
def ensureAll (path : DiskPath) : Nat → Run Disk Unit
  | 0 => ensureDirectory path
  | above + 1 => fun d =>
    match d.makeDirectory path with
    | .error .notFound =>
      match ensureAll path.parent above d with
      | (.error fault, d) => (.error fault, d)
      | (.ok (), d) => ensureDirectory path d
    | _ => ensureDirectory path d

/-- Makes a directory and all that are missing above it, unless it is there. -/
def ensureDirectories (path : DiskPath) : Run Disk Unit :=
  match unaskable? path with
  | some fault => Run.fail fault
  | none => ensureAll path path.steps.length

end Disk

end IndexChain
