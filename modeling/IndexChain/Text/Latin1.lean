import IndexChain.Text

/-!
# Latin-1

The bytes of a published index are its code points below 256, one byte each.
-/

namespace IndexChain

/-- The content of a resource. -/
abbrev Bytes := List UInt8

namespace Text

/-- Each byte is the code point of its number. -/
def ofLatin1 (bytes : Bytes) : Text :=
  bytes.map fun b => ⟨b.toNat, Nat.lt_trans b.toNat_lt (by decide)⟩

/-- The bytes of a text, if all its code points are below 256. -/
def toLatin1? : Text → Option Bytes
  | [] => some []
  | c :: rest => if c.val < 256 then (toLatin1? rest).map (UInt8.ofNat c.val :: ·) else none

end Text

end IndexChain
