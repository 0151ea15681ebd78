import IndexChain.Text.Latin1

/-!
# UTF-8

A text that is stored as UTF-8 is read strictly: no longer form than needed, no surrogates, nothing
beyond the last code point.
-/

namespace IndexChain.Text

/-- The value of a byte that continues a sequence. -/
def continuation? (b : UInt8) : Option Nat :=
  if 0x80 ≤ b.toNat && b.toNat < 0xC0 then some (b.toNat - 0x80) else none

/-- How many bytes continue a sequence with a given first byte, the bits of its code point in the
first byte, and the least code point that needs so many bytes. -/
def lead? (b : UInt8) : Option (Nat × Nat × Nat) :=
  let n := b.toNat
  if n < 0x80 then some (0, n, 0)
  else if 0xC0 ≤ n && n < 0xE0 then some (1, n - 0xC0, 0x80)
  else if 0xE0 ≤ n && n < 0xF0 then some (2, n - 0xE0, 0x800)
  else if 0xF0 ≤ n && n < 0xF8 then some (3, n - 0xF0, 0x10000)
  else none

/-- A code point that needs at least its number of bytes. -/
def codePoint? (least value : Nat) : Option CodePoint :=
  if h : value < 0x110000 then
    let c : CodePoint := ⟨value, h⟩
    if value < least || c.isSurrogate then none else some c
  else none

/-- The code points of bytes, of which the first ones may continue a sequence: `left` says how many
do, and `value` and `least` belong to what came before. -/
def continueUtf8? (left value least : Nat) : Bytes → Option Text
  | [] => if left = 0 then some [] else none
  | b :: rest =>
    match left with
    | 0 => do
      let (left, value, least) ← lead? b
      if left = 0 then return (← codePoint? least value) :: (← continueUtf8? 0 0 0 rest)
      else continueUtf8? left value least rest
    | left + 1 => do
      let value := value * 64 + (← continuation? b)
      if left = 0 then return (← codePoint? least value) :: (← continueUtf8? 0 0 0 rest)
      else continueUtf8? left value least rest

/-- The text of UTF-8 bytes, if they are that. -/
def ofUtf8? (bytes : Bytes) : Option Text := continueUtf8? 0 0 0 bytes

end IndexChain.Text
