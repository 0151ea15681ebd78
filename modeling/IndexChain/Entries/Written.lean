import IndexChain.Entries.Escaped
import IndexChain.Entries.Lines
import IndexChain.Moment
import IndexChain.Text.Latin1

/-!
# Entries as text

The whole text format: reading a text into entries, and writing entries under a heading of comment
lines and a date. `ofText` reads what `toText` writes; the heading leaves no trace.

Resources hold the format as Latin-1 bytes. A stream is expected to yield bytes, but one that yields
text is taken at its word, and anything else is refused (`Payload`).
-/

namespace IndexChain.Entries

/-- The entry on a logical line. Where both key and value are at fault, the value's fault is
reported. -/
def entryOfLine (line : Text) : Except Corruption (Text × Text) := do
  let (key, value) := splitLine line
  let value ← unescape value
  let key ← unescape key
  return (key, value)

/-- Adds the entries on logical lines to earlier ones. -/
def readLines (e : Entries) : List Text → Except Corruption Entries
  | [] => .ok e
  | line :: rest => do
    let (key, value) ← entryOfLine line
    readLines (e.insert key value) rest

/-- The entries of a text; of two entries with one key the later counts. -/
def ofText (text : Text) : Except Corruption Entries := readLines empty (logicalLines text)

/-- What a stream yielded when it was read. -/
inductive Payload
  | bytes (content : Bytes)
  | text (content : Text)
  /-- Something that is neither, called by the name of its type. -/
  | other (found : Text)

/-- The entries of what a stream yielded. -/
def ofPayload : Payload → Except Corruption Entries
  | .bytes content => ofText (Text.ofLatin1 content)
  | .text content => ofText content
  | .other found => .error (.notBytes found)

/-- A comment, one line for each of its natural lines. -/
def commentLines (comment : Option Text) : List Text :=
  match comment.getD [] with
  | [] => []
  | c :: rest => (Text.naturalLines (c :: rest)).map (CodePoint.ofChar '#' :: ·)

/-- The line that says when the text was written. -/
def dateLine (now : Moment) : Text := "#" ++ now.dateText

def entryLine (p : Text × Text) : Text := escapeKey p.1 ++ "=" ++ escapeValue p.2

/-- Entries as text: the comment, the date and the entries, each line ended by LF. -/
def toText (e : Entries) (comment : Option Text) (now : Moment) : Text :=
  (commentLines comment ++ dateLine now :: e.pairs.map entryLine).flatMap fun line =>
    line ++ ("\n" : Text)

/-- Entries as the content of a resource; nothing if the comment has no Latin-1 bytes. -/
def toBytes? (e : Entries) (comment : Option Text) (now : Moment) : Option Bytes :=
  (e.toText comment now).toLatin1?

end IndexChain.Entries
