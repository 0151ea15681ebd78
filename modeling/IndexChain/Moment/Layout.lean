import IndexChain.Moment
import IndexChain.Text.Digit

/-!
# Layouts of written moments

A layout says how a moment's fields follow each other in a text. Fields may have one digit or two,
so a text can often be cut up in several ways; the readings of a layout are tried field by field,
each field's widest reading first, and the first reading that gets through the whole layout counts,
even if it leaves part of the text over.

A pattern spells a layout: a percent sign with a letter is a field, a run of blanks any number of
blanks but none, and every other code point stands for itself, letters in either case.
-/

namespace IndexChain

namespace Moment

/-- The fields of a written moment. -/
inductive Field
  | year
  | month
  | day
  | hour
  | minute
  | second
  | fraction
  | zone
deriving DecidableEq

/-- One piece of a layout. -/
inductive Piece
  | field (f : Field)
  | blanks
  | literal (c : CodePoint)
deriving DecidableEq

/-- A layout is a sequence of pieces. -/
abbrev Layout := List Piece

/-- What the fields of a text say; a field that the layout lacks keeps its default. -/
structure Reading where
  year : Nat := 1900
  month : Nat := 1
  day : Nat := 1
  hour : Nat := 0
  minute : Nat := 0
  second : Nat := 0
  micros : Nat := 0
  /-- The offset in microseconds; the inner `none` marks one whose colons do not agree. -/
  offset : Option (Option Int) := none

namespace Field

/-! ## 1. The readings of a number -/

/-- A digit in ASCII within bounds, at the beginning of a text. -/
def asciiDigitIn (least most : Nat) : Text → Option (Nat × Text)
  | [] => none
  | c :: rest =>
    match c.asciiDigit? with
    | some d => if least ≤ d && d ≤ most then some (d, rest) else none
    | none => none

/-- A digit of any script at the beginning of a text. -/
def anyDigit : Text → Option (Nat × Text)
  | [] => none
  | c :: rest => c.digit?.map (·, rest)

/-- Two digits, each read in its own way. -/
def twoDigits (tens ones : Text → Option (Nat × Text)) (t : Text) : Option (Nat × Text) := do
  let (a, t) ← tens t
  let (b, t) ← ones t
  return (10 * a + b, t)

def afterSpace (digit : Text → Option (Nat × Text)) : Text → Option (Nat × Text)
  | [] => none
  | c :: rest => if c = ' ' then digit rest else none

/-- The digits of any script at the beginning of a text, a number of them at most. -/
def leadingDigits (value : CodePoint → Option Nat) : Nat → Text → List Nat
  | 0, _ => []
  | _ + 1, [] => []
  | n + 1, c :: rest =>
    match value c with
    | some d => d :: leadingDigits value n rest
    | none => []

/-- The readings of one to six digits as a fraction of a second, in microseconds, the longest
first. -/
def fractionReadings (value : CodePoint → Option Nat) (t : Text) : List (Nat × Text) :=
  let digits := leadingDigits value 6 t
  (List.range digits.length).reverse.map fun i =>
    (Text.digitsValue (digits.take (i + 1)) * Nat.pow 10 (5 - i), t.drop (i + 1))

/-- The readings of a field of digits, in the order in which they are tried. -/
def numbers (f : Field) (t : Text) : List (Nat × Text) :=
  let all (ways : List (Option (Nat × Text))) : List (Nat × Text) := ways.filterMap id
  match f with
  | year =>
    all [do
      let (a, t) ← twoDigits anyDigit anyDigit t
      let (b, t) ← twoDigits anyDigit anyDigit t
      return (100 * a + b, t)]
  | month =>
    all [twoDigits (asciiDigitIn 1 1) (asciiDigitIn 0 2) t,
      twoDigits (asciiDigitIn 0 0) (asciiDigitIn 1 9) t, asciiDigitIn 1 9 t]
  | day =>
    all [twoDigits (asciiDigitIn 3 3) (asciiDigitIn 0 1) t, twoDigits (asciiDigitIn 1 2) anyDigit t,
      twoDigits (asciiDigitIn 0 0) (asciiDigitIn 1 9) t, asciiDigitIn 1 9 t,
      afterSpace (asciiDigitIn 1 9) t]
  | hour =>
    all [twoDigits (asciiDigitIn 2 2) (asciiDigitIn 0 3) t, twoDigits (asciiDigitIn 0 1) anyDigit t,
      anyDigit t]
  | minute => all [twoDigits (asciiDigitIn 0 5) anyDigit t, anyDigit t]
  | second =>
    all [twoDigits (asciiDigitIn 6 6) (asciiDigitIn 0 1) t, twoDigits (asciiDigitIn 0 5) anyDigit t,
      anyDigit t]
  | fraction => fractionReadings CodePoint.asciiDigit? t
  | zone => []

/-! ## 2. The readings of an offset -/

/-- Whether a colon begins a text, and what follows it. -/
def optionalColon : Text → Bool × Text
  | [] => (false, [])
  | c :: rest => if c = ':' then (true, rest) else (false, c :: rest)

/-- The readings of what may follow the minutes of an offset: seconds with a fraction, seconds
alone, nothing. Each says whether a colon stood before the seconds, if there are any. -/
def secondsReadings (t : Text) : List (Option Bool × Nat × Text) :=
  let (colon, afterColon) := optionalColon t
  let withSeconds :=
    match twoDigits (asciiDigitIn 0 5) anyDigit afterColon with
    | none => []
    | some (seconds, rest) =>
      let alone := (some colon, seconds * microsPerSecond, rest)
      match rest with
      | [] => [alone]
      | c :: rest' =>
        if c = '.' then
          (fractionReadings CodePoint.digit? rest').map
            (fun (part, left) => (some colon, seconds * microsPerSecond + part, left)) ++ [alone]
        else [alone]
  withSeconds ++ [(none, 0, t)]

/-- The readings of an offset, in microseconds: `Z`, or a sign with hours, minutes and perhaps
seconds. The fields are separated by colons throughout or not at all; of an offset that mixes the
two nothing more is said than that. -/
def offsets : Text → List (Option Int × Text)
  | [] => []
  | c :: rest =>
    if c = 'Z' then [(some 0, rest)]
    else if c = '+' || c = '-' then
      match twoDigits anyDigit anyDigit rest with
      | none => []
      | some (hours, t) =>
        let (colon, t) := optionalColon t
        match twoDigits (asciiDigitIn 0 5) anyDigit t with
        | none => []
        | some (minutes, t) =>
          (secondsReadings t).map fun (secondColon, micros, left) =>
            let size : Int := (hours * 60 + minutes) * 60 * microsPerSecond + micros
            let agree := secondColon.getD colon == colon
            (if agree then some (if c = '-' then -size else size) else none, left)
    else []

/-- Records what a field says. -/
def record (f : Field) (n : Nat) (r : Reading) : Reading :=
  match f with
  | year => { r with year := n }
  | month => { r with month := n }
  | day => { r with day := n }
  | hour => { r with hour := n }
  | minute => { r with minute := n }
  | second => { r with second := n }
  | fraction => { r with micros := n }
  | zone => r

/-- The readings of a field at the beginning of a text, each with what it leaves over. -/
def readings (f : Field) (r : Reading) (t : Text) : List (Reading × Text) :=
  match f with
  | zone => (offsets t).map fun (offset, left) => ({ r with offset := some offset }, left)
  | f => (f.numbers t).map fun (n, left) => (f.record n r, left)

end Field

namespace Piece

/-- The ways to read a piece at the beginning of a text. A run of blanks may give some of them back,
so each number of blanks is a way of its own, the most first. -/
def readings (p : Piece) (r : Reading) (t : Text) : List (Reading × Text) :=
  match p with
  | field f => f.readings r t
  | literal c =>
    match t with
    | [] => []
    | d :: rest => if c.sameLetter d then [(r, rest)] else []
  | blanks =>
    let count := (t.takeWhile CodePoint.isWhitespace).length
    (List.range count).reverse.map fun i => (r, t.drop (i + 1))

end Piece

namespace Layout

/-- The first reading of a text that gets through the layout, with what it leaves over. -/
def read? : Layout → Reading → Text → Option (Reading × Text)
  | [], r, t => some (r, t)
  | p :: rest, r, t => (p.readings r t).findSome? fun (r, t) => read? rest r t

/-- The field of a pattern's letter. -/
def fieldOf? (c : CodePoint) : Option Field :=
  if c = 'Y' then some .year else if c = 'm' then some .month else if c = 'd' then some .day
  else if c = 'H' then some .hour else if c = 'M' then some .minute
    else if c = 'S' then some .second
  else if c = 'f' then some .fraction else if c = 'z' then some .zone else none

/-- The layout that a pattern spells, if all its fields are known. -/
def ofPattern? : Text → Option Layout
  | [] => some []
  | c :: rest =>
    if c = '%' then
      match rest with
      | [] => none
      | letter :: rest => do
        let f ← fieldOf? letter
        return .field f :: (← ofPattern? rest)
    else if c.isWhitespace then
      match rest with
      | [] => some [.blanks]
      | d :: rest => if d.isWhitespace then ofPattern? (d :: rest) else do
        return .blanks :: (← ofPattern? (d :: rest))
    else do return .literal c :: (← ofPattern? rest)

end Layout

end Moment

end IndexChain
