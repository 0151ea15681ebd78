import IndexChain.Fault
import IndexChain.Text.Units

/-!
# Escaped keys and values

How the text of a key or of a value is written on a line of entries, and read back. A backslash
begins every escape: `\t`, `\n`, `\r`, `\f`, a UTF-16 unit in four hexadecimal digits after `\u`,
and any other code point standing for itself.

Writing leaves nothing on the line but printable ASCII. A blank has to be escaped only where reading
would skip it: everywhere in a key, and at the beginning of a value.
-/

namespace IndexChain.Entries

/-! ## 1. Writing -/

/-- A UTF-16 unit as an escape. -/
def unitEscape (unit : CodePoint) : Text := "\\u" ++ Text.hex 4 unit.val

/-- One code point of a written key or value; `blank` says whether a space is escaped here. -/
def escapePoint (blank : Bool) (c : CodePoint) : Text :=
  if c = ' ' then (if blank then ['\\', ' '] else [' '])
  else if c = '\\' then ['\\', '\\']
  else if c = '\t' then ['\\', 't']
  else if c = '\n' then ['\\', 'n']
  else if c = '\r' then ['\\', 'r']
  else if c = '\x0c' then ['\\', 'f']
  else if c = '=' || c = ':' || c = '#' || c = '!' then ['\\', c]
  else if 0x20 ≤ c.val && c.val ≤ 0x7E then [c]
  else c.units.flatMap unitEscape

/-- A key as it is written. -/
def escapeKey (key : Text) : Text := key.flatMap (escapePoint true)

/-- A value as it is written. -/
def escapeValue : Text → Text
  | [] => []
  | c :: rest => escapePoint true c ++ rest.flatMap (escapePoint false)

/-! ## 2. Reading -/

/-- The number of four hexadecimal digits. -/
def unitOfHex? (a b c d : CodePoint) : Option CodePoint :=
  match a.hexDigit?, b.hexDigit?, c.hexDigit?, d.hexDigit? with
  | some i, some j, some k, some l => some (.ofNat (((i * 16 + j) * 16 + k) * 16 + l))
  | _, _, _, _ => none

/-- What a backslash and a code point other than `u` stand for. -/
def named (c : CodePoint) : CodePoint :=
  if c = 't' then '\t' else if c = 'n' then '\n' else if c = 'r' then '\r'
  else if c = 'f' then '\x0c' else c

/-- The text with its escapes replaced by the units they stand for; nothing if a `\u` is not
followed by four hexadecimal digits. A backslash that ends the text stands for itself. -/
def replaceEscapes? : Text → Option Text
  | [] => some []
  | [c] => some [c]
  | c :: d :: rest =>
    if c = '\\' then
      if d = 'u' then
        match rest with
        | h1 :: h2 :: h3 :: h4 :: rest' =>
          match unitOfHex? h1 h2 h3 h4 with
          | some unit => (replaceEscapes? rest').map (unit :: ·)
          | none => none
        | _ => none
      else (replaceEscapes? rest).map (named d :: ·)
    else (replaceEscapes? (d :: rest)).map (c :: ·)

/-- A written key or value read back. A text without a backslash is read as it stands; in any other,
neighbouring halves of surrogate pairs are put together, and no half may be left over. -/
def unescape (text : Text) : Except Corruption Text :=
  if !List.contains text (CodePoint.ofChar '\\') then .ok text
  else
    match replaceEscapes? text with
    | none => .error (.malformedEscape text)
    | some units =>
      match Text.pairHalves? units with
      | none => .error (.unpairedSurrogate text)
      | some t => .ok t

end IndexChain.Entries
