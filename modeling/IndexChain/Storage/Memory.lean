import IndexChain.Location
import IndexChain.Pairs
import IndexChain.Run
import IndexChain.Text.Latin1

/-!
# Files in memory

Memory is a map from places, which are settled paths, to files. A file needs no directory around it,
but directories that were made are remembered: no file can take the place of one.
-/

namespace IndexChain

/-- The files in memory. -/
structure Memory where
  files : List (Text × Bytes) := []
  /-- The places of the directories that were made. -/
  directories : List Text := []

namespace Memory

/-- Whether a file is where a path leads. -/
def isFile (m : Memory) (path : Text) : Bool :=
  (Pairs.get? (MemoryPath.settled path) m.files).isSome

/-- Whether a directory was made at a place; the root is one. -/
def wasMade (m : Memory) (place : Text) : Bool := place.isEmpty || m.directories.contains place

/-- Whether something is below a place, or a directory was made there. -/
def isDirectory (m : Memory) (place : Text) : Bool :=
  let isBelow (other : Text) : Bool := other.beginsWith (place ++ "/")
  m.wasMade place || m.files.any (fun (other, _) => isBelow other) || m.directories.any isBelow

/-- What keeps a place from being opened. -/
def obstacle? (m : Memory) (place : Text) : Option Fault :=
  if m.wasMade place then some (.io .isDirectory place)
  else ((MemoryPath.allAbove place).find? m.isFile).map (.io .alreadyExists)

/-- The content of the file at a place. -/
def readFile (m : Memory) (place : Text) : Except Fault Bytes :=
  match m.obstacle? place, Pairs.get? place m.files with
  | some fault, _ => .error fault
  | none, some content => .ok content
  | none, none => .error (.io .notFound place)

/-- Memory with a file's content at a place. -/
def put (m : Memory) (place : Text) (content : Bytes) : Memory :=
  { m with files := Pairs.set place content m.files }

/-- Makes an empty file, in place of the one that may be there. -/
def truncate (place : Text) : Run Memory Unit := fun m =>
  match m.obstacle? place with
  | some fault => (.error fault, m)
  | none => (.ok (), m.put place [])

def addDirectory (m : Memory) (place : Text) : Memory :=
  { m with directories := m.directories ++ [place] }

/-- Makes a directory and those above it, where nothing is. All of them are given, the innermost one
first. -/
def makeDirectories (m : Memory) : List Text → Except Fault Memory
  | [] => .ok m
  | path :: outer =>
    let place := MemoryPath.settled path
    if m.isFile place || m.wasMade place then .error (.io .alreadyExists place)
    else
      match outer.head?.filter m.isFile with
      | some above => .error (.io .notDirectory above)
      | none =>
        match makeDirectories m outer with
        | .ok m => .ok (m.addDirectory place)
        | .error (.io .alreadyExists _) => .ok (m.addDirectory place)
        | .error fault => .error fault

/-- Makes a directory and those above it, unless it is there. -/
def ensureDirectories (path : MemoryPath) : Run Memory Unit := fun m =>
  let above := (MemoryPath.allAbove path.place).filter (·.any fun c => !MemoryPath.isSlash c)
  match m.makeDirectories (path.place :: above) with
  | .ok m => (.ok (), m)
  | .error (.io .alreadyExists _) =>
    if m.isDirectory path.place then (.ok (), m) else (.error (.io .alreadyExists path.text), m)
  | .error fault => (.error fault, m)

end Memory

end IndexChain
