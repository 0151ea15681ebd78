import IndexChain.Value.Json
import IndexChain.Yaml.Break
import IndexChain.Yaml.Plain

/-!
# Mappings written as YAML

A mapping is written in block style, an entry per line and a list's items under a dash each. A text
is left unquoted where it reads back as itself, and quoted otherwise; only ASCII is written. A long
text is folded at its single blanks once the line is wider than eighty columns.

A key that cannot stand on its line before a colon (it is empty, has line breaks or is too long) is
written after a question mark, and its value then follows a colon on a line of its own.
-/

namespace IndexChain.Yaml

/-! ## 1. How a text may be quoted -/

/-- How a text is written. -/
inductive Style
  | plain
  | single
  | double
deriving DecidableEq

/-- Whether a mark inside a text would end it or begin something else. -/
def hasInnerMark : Bool → Text → Bool
  | _, [] => false
  | afterBlank, c :: rest =>
    (c = ':' && endsWord rest) || (c = '#' && afterBlank) ||
      hasInnerMark (isBlankOrBreak c) rest

/-- Whether a text has a mark that gives it another meaning when it stands unquoted. -/
def hasMark (t : Text) : Bool :=
  match t with
  | [] => false
  | c :: rest =>
    t.beginsWith "---" || t.beginsWith "..." ||
      ("#,[]\x7b\x7d&*!|>'\"%@`".toList.any fun d => CodePoint.ofChar d = c) ||
      ((c = '?' || c = ':' || c = '-') && endsWord rest) || hasInnerMark (isBlankOrBreak c) rest

/-- The code points that can be written without an escape. -/
def isWritable (c : CodePoint) : Bool := c = '\n' || (0x20 ≤ c.val && c.val ≤ 0x7E)

/-- A blank within a line. -/
def space : CodePoint := ' '

/-- The mark of single quotes. -/
def quoteMark : CodePoint := '\''

/-- The end of a line. -/
def lineBreak : CodePoint := '\n'

/-- Whether two given code points stand side by side. -/
def hasPair (a b : CodePoint) : Text → Bool
  | c :: d :: rest => (c = a && d = b) || hasPair a b (d :: rest)
  | _ => false

/-- Whether a text can stand unquoted, as far as its code points go. -/
def canBePlain (t : Text) : Bool :=
  t.all (fun c => isWritable c && c ≠ '\n') && t.head? ≠ some space && t.getLast? ≠ some space &&
    !hasMark t

/-- Whether a text can stand in single quotes: its lines may be folded there, so no blank may stand
at the break of a line. -/
def canBeSingle (t : Text) : Bool :=
  t.all isWritable && !hasPair space lineBreak t && !hasPair lineBreak space t

/-- Whether a text has more than one line; a carriage return does not end a line here. -/
def hasLines (t : Text) : Bool := t.any fun c => isBreak c && c ≠ '\r'

/-- The style of a text; in front of a colon a text has to stay on its line. -/
def styleOf (beforeColon : Bool) (t : Text) : Style :=
  if canBePlain t && PlainKind.ofText t = .text then .plain
  else if canBeSingle t && !(beforeColon && hasLines t) then .single
  else .double

/-! ## 2. Texts -/

/-- The width beyond which a line is folded. -/
def width : Nat := 80

def newLine (indent : Nat) : Text := lineBreak :: List.replicate indent space

/-- The runs of a text: neighbouring blanks, neighbouring line breaks, and what is between. -/
def runs : Text → List Text
  | [] => []
  | c :: rest =>
    let alike (d : CodePoint) : Bool :=
      if c = space then d = space else if c = lineBreak then d = lineBreak
      else d ≠ space && d ≠ lineBreak
    match runs rest with
    | [] => [[c]]
    | run :: more =>
      if run.head?.any alike then (c :: run) :: more else [c] :: run :: more

/-- The runs of a text without quotes or in single quotes, from a column on. A single blank between
two runs is where a wide line is folded; a run of line breaks gets one more, which reading takes
away. -/
def foldRuns (fold : Bool) (indent : Nat) (isFirst : Bool) (column : Nat) : List Text → Text
  | [] => []
  | run :: rest =>
    if run.head? = some lineBreak then
      lineBreak :: run.map (fun _ => lineBreak) ++ List.replicate indent space ++
        foldRuns fold indent false indent rest
    else if run = [space] && fold && !isFirst && !rest.isEmpty && width < column then
      newLine indent ++ foldRuns fold indent false indent rest
    else
      let written : Text := run.flatMap fun c => if c = quoteMark then [c, c] else [c]
      written ++ foldRuns fold indent false (column + written.length) rest

/-- The runs of an unquoted text, from a column on. -/
def foldPlain (fold : Bool) (indent column : Nat) : List Text → Text
  | [] => []
  | run :: rest =>
    if run = [space] && fold && width < column then
      newLine indent ++ foldPlain fold indent indent rest
    else run ++ foldPlain fold indent (column + run.length) rest

/-- The escapes that are a letter or a mark. -/
def shortEscapes : List (Nat × Char) := [
  (0x00, '0'), (0x07, 'a'), (0x08, 'b'), (0x09, 't'), (0x0A, 'n'), (0x0B, 'v'), (0x0C, 'f'),
  (0x0D, 'r'), (0x1B, 'e'), (0x22, '"'), (0x5C, '\\'), (0x85, 'N'), (0xA0, '_'), (0x2028, 'L'),
  (0x2029, 'P')]

/-- The escape of a code point, if it needs one in double quotes. -/
def escape? (c : CodePoint) : Option Text :=
  match shortEscapes.find? fun (n, _) => n == c.val with
  | some (_, letter) => some ['\\', letter]
  | none =>
    if 0x20 ≤ c.val && c.val ≤ 0x7E then none
    else if c.val ≤ 0xFF then some ("\\x" ++ Text.hex 2 c.val)
    else if c.val ≤ 0xFFFF then some ("\\u" ++ Text.hex 4 c.val)
    else some ("\\U" ++ Text.hex 8 c.val)

/-- Ends a wide line inside double quotes; a blank that follows is marked as part of the text. -/
def foldQuoted (indent : Nat) (rest : Text) : Text :=
  "\\" ++ newLine indent ++ (if rest.head? = some space then ("\\" : Text) else [])

/-- The column after a line was ended in front of a rest. -/
def foldedColumn (indent : Nat) (rest : Text) : Nat :=
  indent + if rest.head? = some space then 1 else 0

/-- A text in double quotes, from a column on. A wide line is folded in front of a blank and next to
an escape, but not at the first code point or behind the last but one. -/
def foldDouble (fold : Bool) (indent : Nat) (isFirst atStart : Bool) (column : Nat) : Text → Text
  | [] => []
  | c :: rest =>
    let inside := !isFirst && !rest.isEmpty
    match escape? c with
    | some escaped =>
      let column := column + escaped.length
      if inside && fold && width + 1 < column then
        escaped ++ foldQuoted indent rest ++
          foldDouble fold indent false true (foldedColumn indent rest) rest
      else escaped ++ foldDouble fold indent false true column rest
    | none =>
      if inside && fold && (c = ' ' || atStart) && width < column then
        foldQuoted indent (c :: rest) ++ (c ::
          foldDouble fold indent false false (foldedColumn indent (c :: rest) + 1) rest)
      else c :: foldDouble fold indent false false (column + 1) rest

def writeText (style : Style) (fold : Bool) (indent column : Nat) (t : Text) : Text :=
  match style with
  | .plain => foldPlain fold indent column (runs t)
  | .single => "'" ++ foldRuns fold indent true (column + 1) (runs t) ++ "'"
  | .double => "\"" ++ foldDouble fold indent true true (column + 1) t ++ "\""

/-! ## 3. Values -/

/-- Digits with a power of ten; they get a point, without which they would be read as a text. -/
def writePower (t : Text) : Text :=
  match Text.cutAt 'e' t with
  | some (digits, power) => if digits.contains "." then t else digits ++ ".0e" ++ power
  | none => t

def writeFloat : Binary64 → Text
  | .nan => ".nan"
  | .infinite false => ".inf"
  | .infinite true => "-.inf"
  | x => writePower x.text

/-- A value that is not a list or a mapping with something in it, from a column on. What has no
notation of its own is written as the text that shows it. -/
def writeScalar (indent column : Nat) : Value → Text
  | .null => "null"
  | .bool true => "true"
  | .bool false => "false"
  | .int n => Text.ofInt n
  | .float x => writeFloat x
  | .text t => writeText (styleOf false t) true indent column t
  | .list _ => "[]"
  | .mapping _ => "\x7b\x7d"
  | v => writeText (styleOf false v.shown) true indent column v.shown

/-- A key as it stands before a colon, if it can stand there. -/
def writeKey? : Value → Option Text
  | .text t =>
    if t.isEmpty || hasLines t || 123 ≤ t.length then none
    else some (writeText (styleOf true t) false 0 0 t)
  | v => some (writeScalar 0 0 v)

mutual

/-- A value in the place behind a dash, a question mark or the colon after one, which stands at the
end of `indent` columns. -/
def writeItem (indent : Nat) : Value → Text
  | .list (v :: vs) => " " ++ writeItems (indent + 2) (v :: vs)
  | .mapping (p :: ps) => " " ++ writeFields (indent + 2) (p :: ps)
  | v => " " ++ writeScalar (indent + 2) (indent + 2) v

/-- The items of a list. The first one's line has begun. -/
def writeItems (indent : Nat) : List Value → Text
  | [] => []
  | [v] => "-" ++ writeItem indent v
  | v :: w :: rest => "-" ++ writeItem indent v ++ newLine indent ++ writeItems indent (w :: rest)

/-- A value in the place behind the colon of a key, at a column. -/
def writeBehindKey (indent column : Nat) : Value → Text
  | .list (v :: vs) => newLine indent ++ writeItems indent (v :: vs)
  | .mapping (p :: ps) => newLine (indent + 2) ++ writeFields (indent + 2) (p :: ps)
  | v => " " ++ writeScalar (indent + 2) (column + 1) v

/-- An entry of a mapping. -/
def writeField (indent : Nat) : Value × Value → Text
  | (key, v) =>
    match writeKey? key with
    | some k => k ++ ":" ++ writeBehindKey indent (indent + k.length + 1) v
    | none =>
      "? " ++ writeScalar (indent + 2) (indent + 2) key ++ newLine indent ++ ":" ++
        writeItem indent v

/-- The entries of a mapping. The first one's line has begun. -/
def writeFields (indent : Nat) : List (Value × Value) → Text
  | [] => []
  | [p] => writeField indent p
  | p :: q :: rest => writeField indent p ++ newLine indent ++ writeFields indent (q :: rest)

end

/-- The mapping of some fields as a document. -/
def write (fields : List (Text × Value)) : Text :=
  match fields.map fun (key, v) => (Value.text key, v) with
  | [] => "\x7b\x7d\n"
  | p :: ps => writeFields 0 (p :: ps) ++ "\n"

end IndexChain.Yaml
