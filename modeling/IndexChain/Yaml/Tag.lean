import IndexChain.Text.Utf8
import IndexChain.Yaml.Unquoted

/-!
# Tags

A tag says of what kind a node is. In a document it is written in full or with a handle, a short
name for the beginning of the tag that directives may declare.
-/

namespace IndexChain.Yaml

/-- A letter, digit, hyphen or underscore of ASCII. -/
def isNamePoint (c : CodePoint) : Bool :=
  c.asciiDigit?.isSome || c.isAsciiLetter ||
    c.val == 0x2D || c.val == 0x5F

/-- A name at the beginning of a text, and what follows. -/
def takeName (t : Text) : Except Flaw (Text × Text) :=
  let name := t.takeWhile isNamePoint
  if name.isEmpty then .error .malformed else .ok (name, t.dropWhile isNamePoint)

/-- A tag as it is written. -/
structure Tag where
  /-- The handle; a tag in full has none. -/
  handle : Option Text
  suffix : Text
deriving DecidableEq

namespace Tag

/-- The code points of a tag's suffix, besides escapes. -/
def isSuffixPoint (c : CodePoint) : Bool :=
  isNamePoint c || Unquoted.isOneOf ";/?:@&=+$,.!~*'()[]" c

/-- The text of a row of escapes; `bytes` are those it names, the last one first. -/
def escapedText (bytes : Bytes) : Except Flaw Text :=
  match Text.ofUtf8? bytes.reverse with
  | some t => .ok t
  | none => .error .malformed

/-- Where in a suffix the reader is. -/
inductive Place
  | between
  /-- Behind a percent sign. -/
  | escaped
  /-- Behind a percent sign and one digit. -/
  | halfway (high : Nat)

/-- The suffix at the beginning of a text, and what follows. `bytes` are those of a row of escapes
that has not ended yet. -/
def takeSuffix (bytes : Bytes) : Place → Text → Except Flaw (Text × Text)
  | .between, [] => (escapedText bytes).map (·, [])
  | _, [] => .error .malformed
  | .escaped, c :: rest =>
    match c.hexDigit? with
    | some high => takeSuffix bytes (.halfway high) rest
    | none => .error .malformed
  | .halfway high, c :: rest =>
    match c.hexDigit? with
    | some low => takeSuffix (UInt8.ofNat (16 * high + low) :: bytes) .between rest
    | none => .error .malformed
  | .between, c :: rest =>
    if c = '%' then takeSuffix bytes .escaped rest
    else if isSuffixPoint c then do
      let before ← escapedText bytes
      let (t, rest) ← takeSuffix [] .between rest
      return (before ++ c :: t, rest)
    else (escapedText bytes).map (·, c :: rest)

def someSuffix (t : Text) : Except Flaw (Text × Text) := do
  let (s, rest) ← takeSuffix [] .between t
  if List.isEmpty s then .error .malformed else return (s, rest)

/-- A handle with both its marks, at the beginning of a text, and what follows. -/
def handleOf (t : Text) : Except Flaw (Text × Text) :=
  match t with
  | [] => .error .malformed
  | mark :: rest =>
    if mark ≠ '!' then .error .malformed
    else
      let name := rest.takeWhile isNamePoint
      match rest.dropWhile isNamePoint with
      | [] => .error .malformed
      | c :: rest' =>
        if c = '!' then .ok (mark :: name ++ [c], rest')
        else if c = ' ' && name.isEmpty then .ok ([mark], c :: rest')
        else .error .malformed

/-- Whether a tag goes on with a second mark, so that it has a handle. -/
def hasHandle (t : Text) : Bool :=
  (t.takeWhile fun c => !(c.val == 0x20 || isBreak c)).any fun c => c.val == 0x21

/-- The tag behind its mark, and what follows. -/
def read (t : Text) : Except Flaw (Tag × Text) := do
  let (tag, rest) ←
    match t with
    | [] => pure (⟨none, "!"⟩, [])
    | c :: rest =>
      if c = '<' then
        let (s, rest) ← someSuffix rest
        match rest with
        | [] => .error .malformed
        | d :: rest => if d = '>' then pure (Tag.mk none s, rest) else .error .malformed
      else if isBlankOrBreak c then pure (⟨none, "!"⟩, t)
      else
        let (handle, rest) ← if hasHandle t then handleOf ("!" ++ t) else pure ("!", t)
        let (s, rest) ← someSuffix rest
        pure (⟨some handle, s⟩, rest)
  if endsName rest then return (tag, rest) else .error .malformed

/-- The beginning of the tags that the language itself defines. -/
def ownStart : Text := "tag:yaml.org,2002:"

/-- The handles every document knows. -/
def ownHandles : List (Text × Text) := [("!", "!"), ("!!", ownStart)]

/-- The tag in full, by the handles of a document. -/
def inFull (handles : List (Text × Text)) (tag : Tag) : Except Flaw Text :=
  match tag.handle with
  | none => .ok tag.suffix
  | some handle =>
    match handles.find? fun (known, _) => known = handle with
    | some (_, start) => .ok (start ++ tag.suffix)
    | none => .error .malformed

end Tag

end IndexChain.Yaml
