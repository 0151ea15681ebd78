import IndexChain.Text.Latin1

/-!
# Base64

Bytes written in an alphabet of 64 code points, of which four stand for three bytes. Code points
outside the alphabet are passed over. Padding counts only behind two code points of a group of four;
once it fills the group it ends the bytes, whatever follows.
-/

namespace IndexChain.Text

/-- The number of a code point in the alphabet. -/
def sextet? (c : CodePoint) : Option Nat :=
  let n := c.val
  if 0x41 ≤ n && n ≤ 0x5A then some (n - 0x41)
  else if 0x61 ≤ n && n ≤ 0x7A then some (n - 0x61 + 26)
  else if 0x30 ≤ n && n ≤ 0x39 then some (n - 0x30 + 52)
  else if c = '+' then some 62
  else if c = '/' then some 63
  else none

/-- The bytes of a text from the middle of a group on: `place` is the number of code points of the
group so far, `left` the bits of theirs that belong to no byte yet, and `pads` the padding that
counts. -/
def continueBase64? (place left pads : Nat) : Text → Option Bytes
  | [] => if place = 0 then some [] else none
  | c :: rest =>
    if c = '=' then
      if place < 2 then continueBase64? place left pads rest
      else if 4 ≤ place + pads + 1 then some []
      else continueBase64? place left (pads + 1) rest
    else
      match sextet? c, place with
      | none, _ => continueBase64? place left pads rest
      | some bits, 0 => continueBase64? 1 bits 0 rest
      | some bits, 1 =>
        (continueBase64? 2 (bits % 16) 0 rest).map (UInt8.ofNat (left * 4 + bits / 16) :: ·)
      | some bits, 2 =>
        (continueBase64? 3 (bits % 4) 0 rest).map (UInt8.ofNat (left * 16 + bits / 4) :: ·)
      | some bits, _ =>
        (continueBase64? 0 0 0 rest).map (UInt8.ofNat (left * 64 + bits) :: ·)

/-- The bytes of a text, if no group is left unfinished. -/
def ofBase64? (t : Text) : Option Bytes := continueBase64? 0 0 0 t

end IndexChain.Text
