import IndexChain.Counter
import IndexChain.Moment
import IndexChain.Text.Digit
import IndexChain.Value
import IndexChain.Yaml.Break
import IndexChain.Yaml.Plain

/-!
# Numbers and dates of a YAML document

Integers are written in decimal, after a zero in octal, or with a prefix in base two or sixteen;
parts between colons are those of base sixty. Underscores between digits say nothing. A number with
a point is the float nearest to it; one in base sixty is summed up from its parts in floats.
-/

namespace IndexChain.Yaml

/-! ## 1. Integers -/

/-- The sign in front of a number with something in it, and the rest. -/
def splitSign (t : Text) : Except Flaw (Bool × Text) :=
  match t with
  | [] => .error .emptyNumber
  | _ :: _ => .ok (Counter.splitSign t)

/-- A text without underscores. -/
def dropUnderscores (t : Text) : Text := t.filter fun c => c.val != 0x5F

def signed (negative : Bool) (n : Int) : Int := if negative then -n else n

/-- A digit of any base up to sixteen. -/
def anyDigit? (c : CodePoint) : Option Nat := (c.digit?).orElse fun _ => c.hexDigit?

/-- The number of all the digits of a text in a base. -/
def naturalOf? (base : Nat) : Nat → Text → Option Nat
  | n, [] => some n
  | n, c :: rest =>
    match anyDigit? c with
    | some d => if d < base then naturalOf? base (base * n + d) rest else none
    | none => none

/-- The letter that may stand behind a zero in front of a number of a base. -/
def baseLetter (base : Nat) : List Char :=
  if base = 2 then ['b', 'B'] else if base = 8 then ['o', 'O'] else if base = 16 then ['x', 'X']
  else []

/-- Digits without the mark of their base. -/
def dropBaseMark (base : Nat) (t : Text) : Text :=
  match t with
  | zero :: letter :: rest =>
    if zero = '0' && (baseLetter base).any fun c => CodePoint.ofChar c = letter then rest else t
  | t => t

/-- An integer in a base, with its sign and blanks around it. Only so many decimal digits are read
as a counter may have. -/
def integerIn (base : Nat) (t : Text) : Except Flaw Int :=
  let (negative, body) := Counter.splitSign t.strip
  let body := dropBaseMark base body
  if body.isEmpty || (base == 10 && Counter.digitLimit < body.length) then .error .badValue
  else
    match naturalOf? base 0 body with
    | some n => .ok (signed negative n)
    | none => .error .badValue

/-- The number of parts in base sixty, the first one the greatest. -/
def sixtieths (parts : List Int) : Int := parts.foldl (fun n part => 60 * n + part) 0

def integerOf (t : Text) : Except Flaw Int := do
  let (negative, body) ← splitSign (dropUnderscores t)
  match body with
  | [] => .error .emptyNumber
  | first :: rest =>
    let after (letter : Char) : Bool := first = '0' && rest.head? = some (CodePoint.ofChar letter)
    let size ←
      if body = "0" then pure 0
      else if after 'b' then integerIn 2 (rest.drop 1)
      else if after 'x' then integerIn 16 (rest.drop 1)
      else if first = '0' then integerIn 8 body
      else if body.contains ":" then
        return signed negative (sixtieths (← (Text.splitAt ':' body).mapM (integerIn 10)))
      else integerIn 10 body
    return signed negative size

/-! ## 2. Numbers with a point -/

/-- A text with the capitals of ASCII made small. -/
def small (t : Text) : Text :=
  t.map fun c => if 0x41 ≤ c.val && c.val ≤ 0x5A then .ofNat (c.val + 0x20) else c

/-- The power of ten behind its letter. -/
def powerOf? (t : Text) : Option Int :=
  let (negative, body) := Counter.splitSign t
  if body.isEmpty then none else (naturalOf? 10 0 body).map fun n => signed negative n

/-- The float of decimal digits with a point or a power of ten. -/
def digitsFloat? (negative : Bool) (t : Text) : Option Binary64 := do
  let (digits, power) ←
    match Text.cutAt 'e' t with
    | none => some (t, 0)
    | some (digits, power) => (powerOf? power).map (digits, ·)
  let (whole, fraction) := (Text.cutAt '.' digits).getD (digits, [])
  if whole.isEmpty && fraction.isEmpty then none
  else
    let n ← naturalOf? 10 0 (whole ++ fraction)
    return .ofDecimal negative n (power - fraction.length)

/-- The float of a text in small letters, with its sign and blanks around it. -/
def floatOf? (t : Text) : Option Binary64 :=
  let (negative, body) := Counter.splitSign t.strip
  if body = "inf" || body = "infinity" then some (.infinite negative)
  else if body = "nan" then some .nan
  else digitsFloat? negative body

/-- The sum of parts in base sixty, of which the last comes first: each part is multiplied by its
power of sixty, and every step rounds. A power too large for a float has no product. -/
def sumSixtieths (sum : Binary64) (base : Int) : List Binary64 → Except Flaw Binary64
  | [] => .ok sum
  | part :: rest =>
    match Binary64.ofInt base with
    | .finite s m e => sumSixtieths (sum.add (part.mul (.finite s m e))) (base * 60) rest
    | _ => .error .tooLarge

/-- A number with a point. -/
def decimalOf (t : Text) : Except Flaw Binary64 := do
  let (negative, body) ← splitSign (small (dropUnderscores t))
  if body = ".inf" then return .infinite negative
  else if body = ".nan" then return .nan
  else
    match (Text.splitAt ':' body).mapM floatOf? with
    | none => .error .badValue
    | some [x] => return if negative then x.neg else x
    | some parts =>
      let sum ← sumSixtieths (.zero false) 1 parts.reverse
      return if negative then sum.neg else sum

/-! ## 3. Truth values and dates -/

/-- A truth value. -/
def boolOf (t : Text) : Except Flaw Bool :=
  let t := small t
  if t = "yes" || t = "true" || t = "on" then .ok true
  else if t = "no" || t = "false" || t = "off" then .ok false
  else .error .badBool

/-- The shape of dates and times, which is wider than the one they are known by without a tag. -/
def dateShape : Shape :=
  Shape.times 4 Shape.digit ++ Shape.word "-" ++ Shape.digit ++ Shape.maybe Shape.digit ++
    Shape.word "-" ++ Shape.digit ++ Shape.maybe Shape.digit ++ Shape.maybe PlainKind.timeOfDay

/-- The digits at the beginning of a text. -/
def leadingDigits (t : Text) : List Nat :=
  (t.takeWhile fun c => c.asciiDigit?.isSome).filterMap CodePoint.asciiDigit?

/-- The number at the beginning of a text, and what follows the code point behind it. -/
def takeField (t : Text) : Nat × Text :=
  let ds := leadingDigits t
  (Text.digitsValue ds, t.drop (ds.length + 1))

/-- The microseconds of the digits behind the point; further digits are dropped. -/
def microsOf (ds : List Nat) : Nat := Text.digitsValue ((ds ++ List.replicate 6 0).take 6)

/-- The zone behind a time of day, if one is stated and there is such a zone. -/
def zoneOf (t : Text) : Except Flaw (Option Zone) :=
  match t.dropWhile fun c => c.val == 0x20 || c.val == 0x09 with
  | [] => .ok none
  | mark :: rest =>
    if mark = 'Z' then .ok (some .utc)
    else
      let (hours, rest) := takeField rest
      let offset := (hours * 60 + (takeField rest).1) * 60
      match Zone.ofSeconds? (signed (mark = '-') offset) with
      | some z => .ok (some z)
      | none => .error .badValue

/-- The time of day behind a date. -/
def momentOf (d : Date) (t : Text) : Except Flaw Value := do
  let (hour, rest) := takeField (t.dropWhile fun c => c.asciiDigit?.isNone)
  let (minute, rest) := takeField rest
  let seconds := leadingDigits rest
  let rest := rest.drop seconds.length
  let fraction := if rest.head? = some '.' then leadingDigits (rest.drop 1) else []
  let rest := if rest.head? = some '.' then rest.drop (1 + fraction.length) else rest
  let zone ← zoneOf rest
  match Moment.ofFields? d hour minute (Text.digitsValue seconds) (microsOf fraction)
      (zone.getD .utc) with
  | some m => return .moment m zone.isSome
  | none => .error .badValue

/-- A date, with a time of day if there is one. -/
def dateOf (t : Text) : Except Flaw Value :=
  let t := PlainKind.dropLastBreak t
  if !dateShape.accepts t then .error .noDate
  else
    let (year, rest) := takeField t
    let (month, rest) := takeField rest
    let day := leadingDigits rest
    let d : Date := ⟨year, month, Text.digitsValue day⟩
    match rest.drop day.length with
    | [] => if d.IsValid then .ok (.date d) else .error .badValue
    | time => momentOf d time

end IndexChain.Yaml
