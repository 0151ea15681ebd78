import IndexChain.Entries

/-!
# Lines of entries

A text of entries is cut into natural lines, natural lines are joined into logical ones, and a
logical line is split into a key and a value. None of this looks into escapes further than to see
which code points are escaped.

* A natural line that ends in an odd number of backslashes is continued by the next one, whose
  leading blanks do not count.
* Blank lines, and lines that begin with `#` or `!`, are skipped; a line that continues another one
  is never skipped.
* A key ends at the first `=`, `:` or blank that is not escaped. Blanks around the separator do not
  count.
-/

namespace IndexChain.Entries

/-- The blanks of a line: space, tab and form feed. -/
def isBlank (c : CodePoint) : Bool := c = ' ' || c = '\t' || c = '\x0c'

/-- The marks that separate a key from its value. -/
def isSeparator (c : CodePoint) : Bool := c = '=' || c = ':'

/-- Whether a line without its leading blanks is empty or a comment. -/
def isSkipped : Text → Bool
  | [] => true
  | c :: _ => c = '#' || c = '!'

/-- The number of backslashes at the end of a line. -/
def trailingBackslashes (line : Text) : Nat :=
  (line.reverse.takeWhile (· = CodePoint.ofChar '\\')).length

/-- Whether the next natural line continues this one. -/
def isContinued (line : Text) : Bool := trailingBackslashes line % 2 == 1

/-- Natural lines joined into logical ones. `pending` is what earlier lines left to be continued; at
the end of the text it counts as a line unless it is empty. -/
def joinLines : Option Text → List Text → List Text
  | none, [] => []
  | some pending, [] => if pending.isEmpty then [] else [pending]
  | pending, raw :: rest =>
    let line := raw.dropWhile isBlank
    if pending.isNone && isSkipped line then joinLines none rest
    else if isContinued line then joinLines (some (pending.getD [] ++ line.dropLast)) rest
    else (pending.getD [] ++ line) :: joinLines none rest

def logicalLines (text : Text) : List Text := joinLines none (Text.naturalLines text)

/-- A logical line before and from the end of its key. -/
def cutKey : Text → Text × Text
  | [] => ([], [])
  | [c] => if c = '\\' then ([c], []) else if isSeparator c || isBlank c then ([], [c])
    else ([c], [])
  | c :: d :: rest =>
    if c = '\\' then
      let (key, after) := cutKey rest
      (c :: d :: key, after)
    else if isSeparator c || isBlank c then ([], c :: d :: rest)
    else
      let (key, after) := cutKey (d :: rest)
      (c :: key, after)

/-- What follows a key, without the separator and the blanks around it. -/
def dropSeparator (after : Text) : Text :=
  match after.dropWhile isBlank with
  | [] => []
  | c :: rest => if isSeparator c then rest.dropWhile isBlank else c :: rest

/-- The key and the value on a logical line, still escaped. -/
def splitLine (line : Text) : Text × Text :=
  let (key, after) := cutKey line
  (key, dropSeparator after)

end IndexChain.Entries
