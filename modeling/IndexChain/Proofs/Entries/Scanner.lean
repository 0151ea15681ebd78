import IndexChain.Entries.Escaped
import IndexChain.Entries.Lines

/-!
# A scanner of entries

The text format of entries as a machine that goes through a text once, one code point at a time. It
has no lines to cut and nothing to look back at: what it knows of the text it has read is its state.

* `Scanner.step` tells where natural lines end: at CR, at LF and at CR LF.
* `Scan.point` and `Scan.endLine` tell which natural lines count, which of their code points are
  escaped, and where a logical line ends.
* `Item.push` tells the key on a logical line from the value.
* `Part.push` decodes the key or the value.
* `Pairing.push` puts units together that were read of `\u` escapes and are halves of one surrogate
  pair. Any other code point stands for itself (`Pairing.point`), even one that is such a half.

Each of them takes what the one above it passes on.
-/

namespace IndexChain.Entries

/-- Why the scanner refuses a text. -/
inductive Flaw
  /-- A `\u` without four hexadecimal digits behind it. -/
  | malformedEscape
  /-- A half of a surrogate pair that stands alone. -/
  | unpairedSurrogate
deriving DecidableEq

/-! ## 1. Keys and values -/

/-- What was read of a key or value so far. -/
inductive Pairing
  /-- No escaped half is left over. -/
  | whole (text : Text)
  /-- The last unit was escaped and opens a pair. -/
  | half (text : Text) (high : CodePoint)
  /-- A half stood alone. -/
  | broken

/-- One more unit of an escape. -/
def Pairing.push : Pairing → CodePoint → Pairing
  | whole text, unit =>
    if unit.isHighSurrogate then half text unit
    else if unit.isLowSurrogate then broken
    else whole (text ++ [unit])
  | half text high, unit => if unit.isLowSurrogate then whole (text ++ [.ofHalves high unit])
    else broken
  | broken, _ => broken

/-- One more code point that stands for itself. -/
def Pairing.point : Pairing → CodePoint → Pairing
  | whole text, c => whole (text ++ [c])
  | half .., _ | broken, _ => broken

/-- A code point of a logical line, with or without a backslash before it. -/
inductive Mark
  | plain (c : CodePoint)
  | escaped (c : CodePoint)

/-- Where a key or value is within an escape. -/
inductive Escape
  | outside
  /-- So many hexadecimal digits of a unit were read, and this is the number that they make. -/
  | digits (count value : Nat)
  | malformed

/-- A key or a value so far. -/
structure Part where
  pairing : Pairing := .whole []
  escape : Escape := .outside

/-- The unit of an escape, which ends with it. -/
def Part.unit (p : Part) (unit : CodePoint) : Part := ⟨p.pairing.push unit, .outside⟩

/-- One more code point outside of escapes. -/
def Part.point (p : Part) (c : CodePoint) : Part := ⟨p.pairing.point c, .outside⟩

/-- One more code point. -/
def Part.push (p : Part) (mark : Mark) : Part :=
  match p.escape, mark with
  | .outside, .plain c => p.point c
  | .outside, .escaped c => if c = 'u' then { p with escape := .digits 0 0 } else p.point (named c)
  | .digits count value, .plain c =>
    match c.hexDigit? with
    | none => { p with escape := .malformed }
    | some digit =>
      if count = 3 then p.unit (.ofNat (value * 16 + digit))
      else { p with escape := .digits (count + 1) (value * 16 + digit) }
  | .digits .., .escaped _ | .malformed, _ => { p with escape := .malformed }

/-- What the key or value is, at its end. -/
def Part.finish (p : Part) : Except Flaw Text :=
  match p.escape, p.pairing with
  | .outside, .whole text => .ok text
  | .outside, _ => .error .unpairedSurrogate
  | _, _ => .error .malformedEscape

/-! ## 2. Logical lines -/

/-- How far a logical line is. -/
inductive Stage
  | key
  /-- After the key, and before the separator if there is one. -/
  | gap
  /-- After the separator, and before the value. -/
  | margin
  | value

/-- The key and the value on a logical line, so far. -/
structure Item where
  stage : Stage := .key
  key : Part := {}
  value : Part := {}

/-- The value begins or goes on. -/
def Item.pushValue (item : Item) (mark : Mark) : Item :=
  { item with stage := .value, value := item.value.push mark }

/-- One more code point. -/
def Item.push (item : Item) (mark : Mark) : Item :=
  match item.stage, mark with
  | .key, .plain c =>
    if isSeparator c then { item with stage := .margin }
    else if isBlank c then { item with stage := .gap }
    else { item with key := item.key.push mark }
  | .key, .escaped _ => { item with key := item.key.push mark }
  | .gap, .plain c =>
    if isBlank c then item
    else if isSeparator c then { item with stage := .margin }
    else item.pushValue mark
  | .margin, .plain c => if isBlank c then item else item.pushValue mark
  | _, _ => item.pushValue mark

/-- The entry, at the end of the line. If both key and value have a flaw, the value's counts. -/
def Item.finish (item : Item) : Except Flaw (Text × Text) := do
  let value ← item.value.finish
  let key ← item.key.finish
  return (key, value)

/-! ## 3. Natural lines -/

/-- Where on a natural line the scanner is. -/
inductive Position
  /-- After nothing but blanks. -/
  | outset
  | comment
  | within
  /-- After a backslash that is not escaped. -/
  | backslash
  /-- After nothing but blanks, on a line that continues another. -/
  | resumed

/-- The entries so far, and the logical line that is being read. -/
structure Scan where
  entries : Except Flaw Entries := .ok empty
  item : Option Item := none
  position : Position := .outset

namespace Scan

/-- One more code point of the logical line. -/
def mark (s : Scan) (mark : Mark) : Scan :=
  { s with item := some ((s.item.getD {}).push mark), position := .within }

/-- A code point other than a line terminator. -/
def point (s : Scan) (c : CodePoint) : Scan :=
  match s.position with
  | .outset =>
    if isBlank c then s
    else if c = '#' || c = '!' then { s with position := .comment }
    else if c = '\\' then { s with position := .backslash }
    else s.mark (.plain c)
  | .comment => s
  | .within => if c = '\\' then { s with position := .backslash } else s.mark (.plain c)
  | .backslash => s.mark (.escaped c)
  | .resumed =>
    if isBlank c then s
    else if c = '\\' then { s with position := .backslash }
    else s.mark (.plain c)

/-- The end of a logical line. A line of nothing is no entry. -/
def settle (s : Scan) : Scan :=
  match s.item with
  | none => s
  | some item =>
    { s with
      entries := s.entries.bind fun entries => item.finish.map fun p => entries.insert p.1 p.2
      item := none }

/-- The end of a natural line. -/
def endLine (s : Scan) : Scan :=
  match s.position with
  | .backslash => { s with position := .resumed }
  | _ => { s.settle with position := .outset }

end Scan

/-! ## 4. Texts -/

/-- The scan of a text so far. -/
structure Scanner where
  scan : Scan := {}
  /-- The last code point was a CR, which ended a natural line. -/
  afterCr : Bool := false

/-- One more code point. -/
def Scanner.step (s : Scanner) (c : CodePoint) : Scanner :=
  if c = '\n' && s.afterCr then { s with afterCr := false }
  else if c = '\n' || c = '\r' then ⟨s.scan.endLine, c = '\r'⟩
  else ⟨s.scan.point c, false⟩

/-- The entries of a text. A backslash that ends the text counts for nothing. -/
def scanText (text : Text) : Except Flaw Entries :=
  (text.foldl Scanner.step {}).scan.settle.entries

end IndexChain.Entries
