import IndexChain.Text

/-!
# Binary numbers of double precision

The numbers of the format binary64: 53 bits and a power of two, two zeros, two infinities, and a
value that is no number. Every operation is the exact one followed by rounding to the nearest number
of the format, of two equally near ones to the even one. A number is written in the fewest decimal
digits that read back as the number itself.

Numbers are kept in one form only, so equal ones other than the zeros are equal as values.
-/

namespace IndexChain

/-- A number of the format binary64. -/
inductive Binary64
  /-- No number at all. -/
  | nan
  | infinite (negative : Bool)
  /-- The number `mantissa * 2 ^ exponent` with its sign. The mantissa has 53 bits, or fewer if the
  exponent is the least one. -/
  | finite (negative : Bool) (mantissa : Nat) (exponent : Int)
deriving DecidableEq, Inhabited

namespace Binary64

/-! ## 1. Rounding -/

/-- The number of bits of a mantissa. -/
def precision : Nat := 53

/-- The exponents of the smallest and the largest numbers. -/
def leastExponent : Int := -1074
def greatestExponent : Int := 971

/-- The zero of a sign. -/
def zero (negative : Bool) : Binary64 := finite negative 0 leastExponent

/-- The numerator and the denominator of `m * 2 ^ e`. -/
def ratio (m : Nat) (e : Int) : Nat × Nat := (m * Nat.pow 2 e.toNat, Nat.pow 2 (-e).toNat)

/-- The exponent with which a quotient has a mantissa of 53 bits in front of the point, or the least
one if the quotient is too small for that. -/
def exponentOf (num den : Nat) : Int :=
  let guess : Int := (num.log2 : Int) - den.log2 - 52
  let isShort := num * Nat.pow 2 (-guess).toNat < den * Nat.pow 2 guess.toNat * Nat.pow 2 52
  max leastExponent (if isShort then guess - 1 else guess)

/-- The number of a mantissa that may have a bit too many. -/
def ofMantissa (negative : Bool) (m : Nat) (e : Int) : Binary64 :=
  let (m, e) := if m = Nat.pow 2 precision then (Nat.pow 2 52, e + 1) else (m, e)
  if greatestExponent < e then infinite negative else finite negative m e

/-- The number nearest to a quotient. -/
def ofRatio (negative : Bool) (num den : Nat) : Binary64 :=
  if num = 0 then zero negative
  else
    let e := exponentOf num den
    let n := num * Nat.pow 2 (-e).toNat
    let d := den * Nat.pow 2 e.toNat
    let (q, r) := (n / d, n % d)
    ofMantissa negative (if d < 2 * r || (d == 2 * r && q % 2 == 1) then q + 1 else q) e

/-- The number of decimal digits of a natural number. -/
def digitCount (n : Nat) : Nat := (Nat.toDigits 10 n).length

/-- The number nearest to `digits * 10 ^ power`. A power that is far out of range is not
computed. -/
def ofDecimal (negative : Bool) (digits : Nat) (power : Int) : Binary64 :=
  let size := digitCount digits + power
  if digits = 0 || size < -330 then zero negative
  else if 330 < size then infinite negative
  else ofRatio negative (digits * Nat.pow 10 power.toNat) (Nat.pow 10 (-power).toNat)

/-- The number nearest to an integer. -/
def ofInt (n : Int) : Binary64 := ofRatio (n < 0) n.natAbs 1

/-! ## 2. Arithmetic -/

/-- The number with the other sign. -/
def neg : Binary64 → Binary64
  | nan => nan
  | infinite s => infinite !s
  | finite s m e => finite (!s) m e

/-- A natural number with a sign. -/
def signed (negative : Bool) (n : Nat) : Int := if negative then -n else n

/-- The sum of two numbers. -/
def add : Binary64 → Binary64 → Binary64
  | nan, _ | _, nan => nan
  | infinite s, infinite t => if s = t then infinite s else nan
  | infinite s, finite .. | finite .., infinite s => infinite s
  | finite s m e, finite t n f =>
    let g := min e f
    let sum := signed s (m * Nat.pow 2 (e - g).toNat) + signed t (n * Nat.pow 2 (f - g).toNat)
    if sum = 0 then zero (s && t)
    else
      let (num, den) := ratio sum.natAbs g
      ofRatio (sum < 0) num den

/-- The product of two numbers. -/
def mul : Binary64 → Binary64 → Binary64
  | nan, _ | _, nan => nan
  | infinite s, infinite t => infinite (s != t)
  | infinite s, finite t m _ | finite t m _, infinite s => if m = 0 then nan else infinite (s != t)
  | finite s m e, finite t n f =>
    let (num, den) := ratio (m * n) (e + f)
    ofRatio (s != t) num den

/-! ## 3. Comparison -/

/-- Zero, of either sign. -/
def isZero : Binary64 → Bool
  | finite _ m _ => m == 0
  | _ => false

/-- Whether a number counts as the same key as another: the zeros do not differ. -/
def sameNumber (x y : Binary64) : Bool := x == y || (x.isZero && y.isZero)

/-- Whether a number is an integer. -/
def isInt (x : Binary64) (n : Int) : Bool :=
  match x with
  | finite s m e =>
    let (num, den) := ratio m e
    signed s num == n * den
  | _ => false

/-! ## 4. Decimal notation -/

/-- The number of decimal digits in front of the point of a quotient; if there are none, the number
of zeros that follow the point, negated. -/
def places (num den : Nat) : Int :=
  if den ≤ num then digitCount (num / den)
  else
    let shift := digitCount den - digitCount num
    if den ≤ num * Nat.pow 10 shift then 1 - shift else -shift

/-- The decimal numbers next to a quotient on the grid of a power of ten, the nearer one first. -/
def neighbours (num den : Nat) (power : Int) : List Nat :=
  let n := num * Nat.pow 10 (-power).toNat
  let d := den * Nat.pow 10 power.toNat
  let (q, r) := (n / d, n % d)
  if d < 2 * r || (d == 2 * r && q % 2 == 1) then [q + 1, q] else [q, q + 1]

/-- The fewest digits that read back as `m * 2 ^ e`, with the power of ten of the last one. Of as
few digits the nearest are taken; seventeen always suffice. -/
def shortest (m : Nat) (e : Int) : Nat × Int :=
  let (num, den) := ratio m e
  let found := (List.range 17).findSome? fun (k : Nat) =>
    let power := places num den - (k + 1 : Nat)
    ((neighbours num den power).find? fun digits =>
      ofDecimal false digits power == finite false m e).map (·, power)
  found.getD (m, e)

/-- Zeros in a row. -/
def zeros (n : Nat) : Text := List.replicate n (CodePoint.ofChar '0')

/-- Digits with a point behind the first `point` ones. -/
def positional (digits : Text) (point : Int) : Text :=
  if point ≤ 0 then "0." ++ zeros (-point).toNat ++ digits
  else if digits.length ≤ point then digits ++ zeros (point - digits.length).toNat ++ ".0"
  else digits.take point.toNat ++ "." ++ digits.drop point.toNat

/-- Digits with a point behind the first one, and a power of ten of two digits at least. -/
def scientific (digits : Text) (point : Int) : Text :=
  let power := point - 1
  let fraction := digits.drop 1
  digits.take 1 ++ (if fraction.isEmpty then [] else ("." : Text) ++ fraction) ++ "e" ++
    (if power < 0 then "-" else "+") ++ Text.padded 2 power.natAbs

/-- A number of some digits. Numbers from a ten thousandth up to sixteen places in
front of the point are written without a power of ten. -/
def decimalText (digits : Nat) (power : Int) : Text :=
  let written := Text.ofNat digits
  let point := written.length + power
  let digits := Text.trimEnd (fun c => c = '0') written
  if -4 < point && point ≤ 16 then positional digits point else scientific digits point

/-- A number in decimal notation. -/
def text : Binary64 → Text
  | nan => "nan"
  | infinite false => "inf"
  | infinite true => "-inf"
  | finite s m e =>
    let sign : Text := if s then "-" else ""
    if m = 0 then sign ++ "0.0"
    else
      let (digits, power) := shortest m e
      sign ++ decimalText digits power

end Binary64

end IndexChain
