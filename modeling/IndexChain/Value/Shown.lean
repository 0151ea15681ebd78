import IndexChain.Counter
import IndexChain.Text.Quoted
import IndexChain.Value

/-!
# Values in messages

How a value is named in a message. Texts, numbers and bytes are shown as they would be written in a
program, dates and times by how they are made, lists and mappings in brackets.
-/

namespace IndexChain.Value

/-- A byte of shown bytes. -/
def shownByte (mark : CodePoint) (b : UInt8) : Text :=
  let c := CodePoint.ofNat b.toNat
  if b.toNat < 0x80 then Text.quotePoint mark c else "\\x" ++ Text.smallHex 2 b.toNat

/-- Bytes in quotes behind the letter `b`, with escapes for those that are not printable ASCII. -/
def shownBytes (content : Bytes) : Text :=
  let single : CodePoint := '\''
  let double : CodePoint := '"'
  let t := Text.ofLatin1 content
  let mark := if List.contains t single && !List.contains t double then double else single
  "b" ++ (mark :: content.flatMap (shownByte mark) ++ [mark])

def shownCall (name : Text) (arguments : List Text) : Text :=
  name ++ "(" ++ Text.join ", " arguments ++ ")"

def dateArguments (d : Date) : List Text :=
  [Text.ofNat d.year, Text.ofNat d.month, Text.ofNat d.day]

/-- A zone: its offset in whole days and seconds, of which only the days may be negative. -/
def shownZone (z : Zone) : Text :=
  let seconds := z.offset.fdiv microsPerSecond
  let days := seconds.fdiv 86400
  let left := seconds.fmod 86400
  let dayPart : List Text := if days = 0 then [] else ["days=" ++ Text.ofInt days]
  let secondPart : List Text := if left = 0 then [] else ["seconds=" ++ Text.ofInt left]
  if seconds = 0 then "datetime.timezone.utc"
  else
    shownCall "datetime.timezone" [shownCall "datetime.timedelta" (dayPart ++ secondPart)]

/-- A date with a time of day; seconds and microseconds are left out at its end if they are zero. -/
def shownMoment (m : Moment) (hasZone : Bool) : Text :=
  let micros : List Text := if m.micros = 0 then [] else [Text.ofNat m.micros]
  let seconds : List Text :=
    if micros.isEmpty && m.second = 0 then [] else Text.ofNat m.second :: micros
  let zone : List Text := if hasZone then ["tzinfo=" ++ shownZone m.zone] else []
  shownCall "datetime.datetime" <|
    dateArguments m.date ++ [Text.ofNat m.hour, Text.ofNat m.minute] ++ seconds ++ zone

/-- An integer; one with more digits than are ever written is not shown. -/
def shownInt (n : Int) : Text :=
  if Nat.pow 10 Counter.digitLimit ≤ n.natAbs then "<unprintable int object>" else Text.ofInt n

def shownScalar : Value → Text
  | bool true => "True"
  | bool false => "False"
  | int n => shownInt n
  | float x => x.text
  | text t => t.quote
  | bytes content => shownBytes content
  | date d => shownCall "datetime.date" (dateArguments d)
  | moment m hasZone => shownMoment m hasZone
  | _ => "None"

mutual

def shown : Value → Text
  | list items => "[" ++ Text.join ", " (shownItems items) ++ "]"
  | set [] => "set()"
  | set members => "\x7b" ++ Text.join ", " (shownItems members) ++ "\x7d"
  | mapping pairs => "\x7b" ++ Text.join ", " (shownPairs pairs) ++ "\x7d"
  | v => shownScalar v

def shownItems : List Value → List Text
  | [] => []
  | v :: rest => shown v :: shownItems rest

/-- The entries of a mapping. -/
def shownPairs : List (Value × Value) → List Text
  | [] => []
  | (k, v) :: rest => (shown k ++ ": " ++ shown v) :: shownPairs rest

end

end IndexChain.Value
