import IndexChain.Location.DiskPath

/-!
# Paths in memory

A path in memory is a text. All that counts in it are the slashes at either end: a path in its
settled spelling begins with a slash, unless it is the root or has a store's name in it, and ends
without one. Inside of it nothing is left out, so a step that stays where it is leads somewhere of
its own.

A path may be written behind a link, which is a pair of colons; what follows a further link belongs
to no path.
-/

namespace IndexChain

structure MemoryPath where
  /-- Whether the path is written behind the name of the store and a link. -/
  linked : Bool := false
  path : Text
  /-- What follows the path, from a link on. -/
  tail : Text := []
deriving DecidableEq, Inhabited

namespace MemoryPath

/-! ## 1. Spellings -/

/-- The beginning of paths in memory. -/
def start : Text := "memory://"

/-- The beginning of linked paths in memory. -/
def linkedStart : Text := "memory::"

/-- Whether a code point is the mark between the steps of a path. -/
def isSlash (c : CodePoint) : Bool := c = DiskPath.slash

/-- A path with the slashes at its ends settled. -/
def settled (t : Text) : Text :=
  let t := (Text.afterStart? start t).getD t
  if t.contains "::" || t.contains "://" then Text.trimEnd isSlash t
  else
    match Text.trimEnd isSlash (t.dropWhile isSlash) with
    | [] => []
    | t => DiskPath.slash :: t

/-- A text that begins with the store's name and one slash has all three slashes of a path from the
root. -/
def spelledOut (t : Text) : Text :=
  match Text.afterStart? "memory:/" t with
  | none => t
  | some rest => if rest.head?.any isSlash then t else start ++ (DiskPath.slash :: rest)

/-- What stands in front of the first link, and the rest from it on. -/
def splitLink : Text → Text × Text
  | [] => ([], [])
  | c :: rest =>
    if Text.beginsWith (c :: rest) "::" then ([], c :: rest)
    else
      let (before, link) := splitLink rest
      (c :: before, link)

def ofText (t : Text) : MemoryPath :=
  let t := spelledOut t
  match Text.afterStart? linkedStart t with
  | some rest =>
    let (path, tail) := splitLink rest
    ⟨true, if path = "." then [] else path, tail⟩
  | none =>
    let (path, tail) := splitLink t
    ⟨false, settled path, tail⟩

/-- The path as it is shown. A path from the root is shown without its slash. -/
def text (p : MemoryPath) : Text :=
  let shown : Text :=
    if p.linked then linkedStart ++ (if p.path.isEmpty then [DiskPath.slash] else p.path)
    else
      let full := if p.path.beginsWith start then p.path else start ++ p.path
      match Text.afterStart? (start ++ "/") full with
      | some rest => start ++ rest
      | none => full
  shown ++ p.tail

/-- The path alone, in its settled spelling. -/
def place (p : MemoryPath) : Text := settled p.path

/-! ## 2. Up and down -/

/-- A name below a path; a name that starts at the root takes the path's place. -/
def child (p : MemoryPath) (name : Text) : MemoryPath :=
  let name := spelledOut name
  let base := if p.linked then p.path else settled p.path
  let base : Text := if base.isEmpty then "/" else base
  let joined : Text :=
    if name.head?.any isSlash then name
    else if base.getLast?.any isSlash then base ++ name
    else base ++ "/" ++ name
  { p with path := if p.linked then joined else settled joined }

/-- What stands above a path: all in front of its last slash. It may end with a slash itself. -/
def above (t : Text) : Text :=
  let before := (((settled t).reverse.dropWhile fun c => !isSlash c).drop 1).reverse
  DiskPath.slash :: before.dropWhile isSlash

/-- All that stands above a path, from the nearest on up to the root. Every step makes the path
shorter, so its length bounds their number. -/
def allAbove (t : Text) : List Text := go t.length t
where
  /-- At most a number of steps upwards. -/
  go : Nat → Text → List Text
    | 0, _ => []
    | steps + 1, t => if t.length ≤ 1 then [] else above t :: go steps (above t)

def parent (p : MemoryPath) : MemoryPath := { p with path := settled (above p.path) }

end MemoryPath

end IndexChain
