/-!
# Text

A text is a list of Unicode code points. It is not a `String`, because the escaped text format of a
published index can spell a single half of a surrogate pair, and such a half has to be carried
around until the format's reader refuses it: a `String` cannot hold one.

The operations are those of `List`; what stands here are the cuts that lists do not have (splitting
at a separator, joining, stripping blanks) and the classes of code points they use.
-/

namespace IndexChain

/-- A Unicode code point, the halves of surrogate pairs included. -/
structure CodePoint where
  /-- The number of the code point. -/
  val : Nat
  /-- Code points end at U+10FFFF. -/
  isLt : val < 0x110000
deriving DecidableEq

namespace CodePoint

/-- Characters are the code points that are not surrogates. -/
def ofChar (c : Char) : CodePoint :=
  ⟨c.toNat, by
    have h := c.valid
    simp only [UInt32.isValidChar, Nat.isValidChar] at h
    show c.val.toNat < 0x110000
    omega⟩

instance : Coe Char CodePoint := ⟨ofChar⟩

instance : Inhabited CodePoint := ⟨'\x00'⟩

theorem ext {a b : CodePoint} (h : a.val = b.val) : a = b := by
  cases a; cases b; simp_all

/-- A half of a surrogate pair. -/
def isSurrogate (c : CodePoint) : Bool := 0xD800 ≤ c.val && c.val < 0xE000

/-- A half that opens a surrogate pair. -/
def isHighSurrogate (c : CodePoint) : Bool := 0xD800 ≤ c.val && c.val < 0xDC00

/-- A half that closes a surrogate pair. -/
def isLowSurrogate (c : CodePoint) : Bool := 0xDC00 ≤ c.val && c.val < 0xE000

/-- A code point of the seven-bit range. -/
def isAscii (c : CodePoint) : Bool := c.val < 0x80

/-- The code points of the property White_Space, and the four separators U+001C to U+001F. -/
def isWhitespace (c : CodePoint) : Bool :=
  (0x09 ≤ c.val && c.val ≤ 0x0D) || (0x1C ≤ c.val && c.val ≤ 0x20) || c.val == 0x85 ||
    c.val == 0xA0 || c.val == 0x1680 || (0x2000 ≤ c.val && c.val ≤ 0x200A) ||
    c.val == 0x2028 || c.val == 0x2029 || c.val == 0x202F || c.val == 0x205F || c.val == 0x3000

def isAsciiLetter (c : CodePoint) : Bool :=
  (0x41 ≤ c.val && c.val ≤ 0x5A) || (0x61 ≤ c.val && c.val ≤ 0x7A)

/-- The value of an ASCII decimal digit. -/
def asciiDigit? (c : CodePoint) : Option Nat :=
  if 0x30 ≤ c.val && c.val ≤ 0x39 then some (c.val - 0x30) else none

/-- The value of an ASCII hexadecimal digit, in either case. -/
def hexDigit? (c : CodePoint) : Option Nat :=
  if 0x30 ≤ c.val && c.val ≤ 0x39 then some (c.val - 0x30)
  else if 0x41 ≤ c.val && c.val ≤ 0x46 then some (c.val - 0x41 + 10)
  else if 0x61 ≤ c.val && c.val ≤ 0x66 then some (c.val - 0x61 + 10)
  else none

/-- An ASCII letter in lower case stands for itself and its capital; other code points for
themselves alone. -/
def sameLetter (a b : CodePoint) : Bool :=
  let lower (n : Nat) : Nat := if 0x41 ≤ n && n ≤ 0x5A then n + 0x20 else n
  lower a.val == lower b.val

/-- The code point a number names, the replacement character for a number too large. -/
def ofNat (n : Nat) : CodePoint :=
  if h : n < 0x110000 then ⟨n, h⟩ else ⟨0xFFFD, by decide⟩

/-- The character of a code point, the replacement character for a surrogate. -/
def toChar (c : CodePoint) : Char :=
  if c.isSurrogate then '\uFFFD' else Char.ofNat c.val

end CodePoint

abbrev Text := List CodePoint

namespace Text

def ofString (s : String) : Text := s.toList.map CodePoint.ofChar

instance : Coe String Text := ⟨ofString⟩

/-- The string of a text in which surrogates are replaced. -/
def toString (t : Text) : String := String.ofList (t.map CodePoint.toChar)

/-! ## 1. Cutting and joining -/

/-- The pieces between the separators; a text without the separator is its own single piece. -/
def splitAt (sep : CodePoint) : Text → List Text
  | [] => [[]]
  | c :: rest =>
    if c = sep then [] :: splitAt sep rest
    else
      match splitAt sep rest with
      | [] => [[c]]
      | piece :: pieces => (c :: piece) :: pieces

/-- Pieces put together again, with a separator text between neighbours. -/
def join (sep : Text) : List Text → Text
  | [] => []
  | [t] => t
  | t :: u :: rest => t ++ sep ++ join sep (u :: rest)

/-- CR LF and CR count as LF. -/
def unifyBreaks : Text → Text
  | [] => []
  | c :: rest =>
    if c = '\r' then
      match rest with
      | [] => ['\n']
      | d :: rest' => if d = '\n' then '\n' :: unifyBreaks rest'
        else '\n' :: unifyBreaks (d :: rest')
    else c :: unifyBreaks rest

/-- The natural lines of a text: what stands between its line terminators LF, CR and CR LF. A text
has one line more than terminators. -/
def naturalLines (t : Text) : List Text := splitAt '\n' (unifyBreaks t)

/-- The text without the code points of a class at its end. -/
def trimEnd (p : CodePoint → Bool) (t : Text) : Text := (t.reverse.dropWhile p).reverse

/-- The text without whitespace at either end. -/
def strip (t : Text) : Text := trimEnd CodePoint.isWhitespace (t.dropWhile CodePoint.isWhitespace)

/-- The rest of a text after a given beginning, if it begins so. -/
def afterStart? : Text → Text → Option Text
  | [], t => some t
  | _ :: _, [] => none
  | a :: start, c :: t => if a = c then afterStart? start t else none

/-- Whether a text begins with another. -/
def beginsWith (t start : Text) : Bool := (afterStart? start t).isSome

/-- What stands before and after the first occurrence of a code point, if it occurs. -/
def cutAt (sep : CodePoint) : Text → Option (Text × Text)
  | [] => none
  | c :: rest => if c = sep then some ([], rest) else (cutAt sep rest).map fun (a, b) => (c :: a, b)

/-- Whether one text occurs within another. -/
def contains (t piece : Text) : Bool :=
  match t with
  | [] => piece.isEmpty
  | c :: rest => beginsWith (c :: rest) piece || contains rest piece

/-! ## 2. Numbers written in ASCII -/

/-- The decimal digits of a number, without leading zeros. -/
def ofNat (n : Nat) : Text := (Nat.toDigits 10 n).map CodePoint.ofChar

/-- The decimal digits of an integer, after a minus sign if it is negative. -/
def ofInt : Int → Text
  | .ofNat n => ofNat n
  | .negSucc n => '-' :: ofNat (n + 1)

/-- The decimal digits of a number, padded with zeros to a width. -/
def padded (width n : Nat) : Text :=
  let digits := ofNat n
  List.replicate (width - digits.length) (CodePoint.ofChar '0') ++ digits

/-- The hexadecimal digit of a number below sixteen; `letters` is the digit for ten. -/
def hexDigit (letters : CodePoint) (n : Nat) : CodePoint :=
  if n < 10 then .ofNat (0x30 + n) else .ofNat (letters.val + (n - 10))

/-- The low digits of a number in base sixteen, most significant first. -/
def hexDigits (letters : CodePoint) : Nat → Nat → Text
  | 0, _ => []
  | width + 1, n => hexDigits letters width (n / 16) ++ [hexDigit letters (n % 16)]

/-- Hexadecimal digits in capitals. -/
def hex (width n : Nat) : Text := hexDigits 'A' width n

/-- Hexadecimal digits in small letters. -/
def smallHex (width n : Nat) : Text := hexDigits 'a' width n

/-- The number that a list of decimal digit values stands for. -/
def digitsValue (ds : List Nat) : Nat := ds.foldl (fun n d => 10 * n + d) 0

end Text

end IndexChain
