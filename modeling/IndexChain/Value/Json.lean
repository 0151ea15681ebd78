import IndexChain.Text.Units
import IndexChain.Value.Shown

/-!
# Values as JSON

A value spread over lines, two spaces deeper for each list or mapping it is in. Only ASCII is
written: any other code point becomes the escapes of its UTF-16 units. A log record stays on one
line. Bytes and dates, which JSON does not have, are written as the texts that messages show.
-/

namespace IndexChain.Value

/-- A code point of a JSON string. -/
def jsonPoint (c : CodePoint) : Text :=
  if c = '"' then "\\\""
  else if c = '\\' then "\\\\"
  else if c = '\n' then "\\n"
  else if c = '\r' then "\\r"
  else if c = '\t' then "\\t"
  else if c = '\x0c' then "\\f"
  else if c = '\x08' then "\\b"
  else if 0x20 ≤ c.val && c.val ≤ 0x7E then [c]
  else c.units.flatMap fun unit => "\\u" ++ Text.smallHex 4 unit.val

def jsonString (t : Text) : Text := "\"" ++ t.flatMap jsonPoint ++ "\""

/-- A float as JSON; what is no number of JSON is written as a word. -/
def jsonFloat : Binary64 → Text
  | .nan => "NaN"
  | .infinite false => "Infinity"
  | .infinite true => "-Infinity"
  | x => x.text

/-- A key of a JSON object. -/
def jsonKey : Value → Text
  | text t => jsonString t
  | int n => jsonString (Text.ofInt n)
  | bool true => jsonString "true"
  | bool false => jsonString "false"
  | float x => jsonString (jsonFloat x)
  | _ => jsonString "null"

/-- The line break before an item at a depth. -/
def jsonBreak (depth : Nat) : Text := "\n" ++ List.replicate (2 * depth) (CodePoint.ofChar ' ')

mutual

/-- A value as JSON, in an item at a depth. -/
def jsonAt (depth : Nat) : Value → Text
  | null => "null"
  | bool true => "true"
  | bool false => "false"
  | int n => Text.ofInt n
  | float x => jsonFloat x
  | text t => jsonString t
  | list [] => "[]"
  | list (v :: vs) =>
    "[" ++ jsonBreak (depth + 1) ++ jsonAt (depth + 1) v ++ jsonItems (depth + 1) vs ++
      jsonBreak depth ++ "]"
  | mapping [] => "\x7b\x7d"
  | mapping ((k, v) :: rest) =>
    "\x7b" ++ jsonBreak (depth + 1) ++ jsonKey k ++ ": " ++ jsonAt (depth + 1) v ++
      jsonFields (depth + 1) rest ++ jsonBreak depth ++ "\x7d"
  | v => jsonString v.shown

/-- The items of a list after its first one. -/
def jsonItems (depth : Nat) : List Value → Text
  | [] => []
  | v :: rest => "," ++ jsonBreak depth ++ jsonAt depth v ++ jsonItems depth rest

/-- The fields of an object after its first one. -/
def jsonFields (depth : Nat) : List (Value × Value) → Text
  | [] => []
  | (k, v) :: rest =>
    "," ++ jsonBreak depth ++ jsonKey k ++ ": " ++ jsonAt depth v ++ jsonFields depth rest

end

def json (v : Value) : Text := jsonAt 0 v

/-- A key or a scalar with what follows it on the same line. -/
def beside (separator before after : Text) : Text :=
  if before.isEmpty then after else before ++ separator ++ after

mutual

def jsonLine : Value → Text
  | list items => "[" ++ lineItems [] items ++ "]"
  | mapping pairs => "\x7b" ++ lineFields [] pairs ++ "\x7d"
  | v => jsonAt 0 v

/-- The items of a list behind others. -/
def lineItems (before : Text) : List Value → Text
  | [] => before
  | v :: rest => lineItems (beside ", " before (jsonLine v)) rest

/-- The fields of an object behind others. -/
def lineFields (before : Text) : List (Value × Value) → Text
  | [] => before
  | (k, v) :: rest => lineFields (beside ", " before (jsonKey k ++ ": " ++ jsonLine v)) rest

end

end IndexChain.Value
