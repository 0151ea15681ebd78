import IndexChain.Fault

/-!
# Counters

Each incremental chunk of an index has a counter, an integer of any size. A text that is not an
integer is no counter, which is not an error; one with more digits than are ever read is. No more
digits are ever written either.
-/

namespace IndexChain.Counter

/-- The most digits that are read, leading zeros among them, and the most that are written. -/
def digitLimit : Nat := 4300

/-- Whether a counter can be written. -/
def isWritable (n : Int) : Bool := (Text.ofNat n.natAbs).length ≤ digitLimit

/-- The values of the digits of a text that consists of ASCII digits. -/
def digits? : Text → Option (List Nat)
  | [] => some []
  | c :: rest =>
    match c.asciiDigit?, digits? rest with
    | some d, some ds => some (d :: ds)
    | _, _ => none

/-- The sign of a written integer, and what follows it. -/
def splitSign : Text → Bool × Text
  | [] => (false, [])
  | c :: rest => if c = '-' then (true, rest) else if c = '+' then (false, rest)
    else (false, c :: rest)

/-- The counter that a text writes: decimal digits after an optional sign. -/
def ofText (text : Text) : Except Fault (Option Int) :=
  let (negative, body) := splitSign text
  match digits? body with
  | none => .ok none
  | some [] => .ok none
  | some ds =>
    if digitLimit < ds.length then .error (.invalidValue none)
    else
      let size : Int := Text.digitsValue ds
      .ok (some (if negative then -size else size))

/-- The counter of a text that may be absent. -/
def ofText? : Option Text → Except Fault (Option Int)
  | none => .ok none
  | some text => ofText text

end IndexChain.Counter
