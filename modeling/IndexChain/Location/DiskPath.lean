import IndexChain.Text

/-!
# Paths on the disk

Two spellings of the same path are the same: empty steps and steps that stay where they are do not
count. Steps upwards are kept, since where they lead depends on what is on the disk.
-/

namespace IndexChain

structure DiskPath where
  /-- The slashes at the beginning: none, one or two. -/
  root : Nat
  /-- The names along the path, and steps upwards. -/
  steps : List Text
deriving DecidableEq, Inhabited

namespace DiskPath

/-- The mark between the steps of a path. -/
def slash : CodePoint := '/'

/-- The step upwards. -/
def upwards : Text := ".."

/-- The steps of a text that count. -/
def stepsOf (t : Text) : List Text :=
  (Text.splitAt slash t).filter fun step => !step.isEmpty && step ≠ "."

/-- The path of a text. Two slashes at the beginning are kept, more count as one. -/
def ofText (t : Text) : DiskPath :=
  let slashes := (t.takeWhile (· = slash)).length
  ⟨if slashes = 2 then 2 else min slashes 1, stepsOf t⟩

/-- A name below a path; a name that starts at the root takes the path's place. -/
def child (p : DiskPath) (name : Text) : DiskPath :=
  let q := ofText name
  if q.root = 0 then ⟨p.root, p.steps ++ q.steps⟩ else q

/-- The path without its last step. -/
def parent (p : DiskPath) : DiskPath := ⟨p.root, p.steps.dropLast⟩

/-- The path as it is shown. -/
def text (p : DiskPath) : Text :=
  if p.root = 0 && p.steps.isEmpty then "."
  else List.replicate p.root slash ++ Text.join [slash] p.steps

/-- The home directories that are known, by the names of their owners; the user's own is under the
empty name. -/
abbrev Homes := List (Text × Text)

/-- The path with a home directory in place of a first step that begins with a tilde, if it is one
that is known. -/
def inHome? (homes : Homes) (p : DiskPath) : Option DiskPath :=
  match p.root, p.steps with
  | 0, step :: rest =>
    match Text.afterStart? "~" step with
    | none => some p
    | some owner =>
      match homes.find? fun (known, _) => known = owner with
      | some (_, home) => some (rest.foldl child (ofText home))
      | none => none
  | _, _ => some p

end DiskPath

end IndexChain
