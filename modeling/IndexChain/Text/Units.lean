import IndexChain.Text

/-!
# UTF-16 units of a text

A code point above U+FFFF is written as two units, the halves of a surrogate pair; any other is one
unit. Reading units back pairs up neighbouring halves, and refuses a half that stands alone.
-/

namespace IndexChain

namespace CodePoint

/-- The half that opens the pair of a code point above U+FFFF. -/
def highHalf (c : CodePoint) : CodePoint :=
  ⟨0xD800 + (c.val - 0x10000) / 0x400 % 0x400, by omega⟩

/-- The half that closes the pair of a code point above U+FFFF. -/
def lowHalf (c : CodePoint) : CodePoint :=
  ⟨0xDC00 + (c.val - 0x10000) % 0x400, by omega⟩

/-- The code point that two halves encode. -/
def ofHalves (high low : CodePoint) : CodePoint :=
  ⟨0x10000 + (high.val - 0xD800) % 0x400 * 0x400 + (low.val - 0xDC00) % 0x400, by omega⟩

/-- The UTF-16 units of a code point. -/
def units (c : CodePoint) : List CodePoint :=
  if c.val < 0x10000 then [c] else [c.highHalf, c.lowHalf]

end CodePoint

namespace Text

/-- The text with neighbouring halves of a pair replaced by the code point they encode; nothing if a
half is left over. -/
def pairHalves? : Text → Option Text
  | [] => some []
  | [c] => if c.isSurrogate then none else some [c]
  | c :: d :: rest =>
    if c.isHighSurrogate then
      if d.isLowSurrogate then (pairHalves? rest).map (CodePoint.ofHalves c d :: ·) else none
    else if c.isSurrogate then none
    else (pairHalves? (d :: rest)).map (c :: ·)

end Text

end IndexChain
