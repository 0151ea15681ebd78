import IndexChain.Fault
import IndexChain.Location.MemoryPath

/-!
# Locations

A location names a directory: on the disk or in memory. A text may begin with the name of the store
it belongs to; without one it belongs to the disk, unless a store is asked for beside it.

Memory is the only store that a text may name here. One that begins with any other, be it `file://`
or `https://`, is refused as of a store that is not known, so the disk is reached by plain paths
only.
-/

namespace IndexChain

/-- A directory that holds an index or a copy of one. -/
inductive Location
  | disk (path : DiskPath)
  | memory (path : MemoryPath)
deriving DecidableEq, Inhabited

namespace Location

/-- The location as it is shown. -/
def text : Location → Text
  | disk path => path.text
  | memory path => path.text

/-- The location above. -/
def parent : Location → Location
  | disk path => disk path.parent
  | memory path => memory path.parent

/-! ## 1. Stores -/

/-- The names of the store in memory and of the disk. -/
def memoryName : Text := "memory"
def diskNames : List Text := ["file", "local"]

/-- The name of the store that a text begins with: a letter and more letters, digits or plus signs
in front of a colon and a slash, or of a link. -/
def store? (t : Text) : Option Text :=
  let isPart (c : CodePoint) : Bool := c.isAsciiLetter || c.asciiDigit?.isSome || c.val == 0x2B
  match Text.cutAt ':' t with
  | none => none
  | some (name, rest) =>
    if 2 ≤ name.length && name.head?.any CodePoint.isAsciiLetter && name.all isPart &&
        (rest.beginsWith "/" || rest.beginsWith ":") then
      some name
    else none

/-- A name below a location. The name may not belong to another store; what follows a plus sign in
the name of a store does not count. -/
def child (name : Text) (location : Location) : Except Fault Location :=
  match location, store? name with
  | disk path, none => .ok (disk (path.child name))
  | disk _, some _ => .error (.invalidValue none)
  | memory path, none => .ok (memory (path.child name))
  | memory path, some store =>
    if store.takeWhile (· ≠ CodePoint.ofChar '+') = memoryName then .ok (memory (path.child name))
    else .error (.invalidValue none)

/-! ## 2. Locations of texts -/

/-- The location of a path in a store that is asked for by its name. -/
def inStore (store : Text) (path : Text) : Except Fault Location :=
  if store = memoryName then .ok (memory (.ofText path))
  else if diskNames.contains store then .ok (disk (.ofText path))
  else .error (.invalidValue none)

/-- The location of a text. The store that is asked for has to agree with the one that the text
names, and that has to be memory: a link to the disk or to a server is refused. The disk may be
asked for by its name, beside a text that names no store (`inStore`). -/
def ofText (t : Text) (asked : Option Text) : Except Fault Location :=
  match store? t, asked with
  | none, none => .ok (disk (.ofText t))
  | none, some store => inStore store t
  | some own, asked =>
    let store := asked.getD own
    if store.beginsWith own && store = memoryName then .ok (memory (.ofText t))
    else .error (.invalidValue none)

/-- The path of a copy. Unless a store is named before two slashes it is one on the disk, and may
begin with a home directory. -/
def copyPath? (homes : DiskPath.Homes) (t : Text) : Except Fault (Option DiskPath) :=
  if t.contains "://" then .ok none
  else
    match (DiskPath.ofText t).inHome? homes with
    | some path => .ok (some path)
    | none => .error (.internal none)

end Location

end IndexChain
