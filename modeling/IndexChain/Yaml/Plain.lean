import IndexChain.Text.Shape

/-!
# What an unquoted scalar means

YAML 1.1 reads a scalar that stands without quotes and without a tag by its shape: as a truth value,
a number, a date, as nothing, or as the text it is. The shapes stand here; they decide both how a
document is read and which texts have to be quoted when one is written.

A single line break at the end does not change what a scalar means; it can be there if the tag that
says nothing asks for a quoted scalar to be read like an unquoted one.
-/

namespace IndexChain.Yaml

/-- What an unquoted scalar means. -/
inductive PlainKind
  | bool
  | decimal
  | integer
  /-- The key under which one mapping is merged into another. -/
  | merge
  | null
  | timestamp
  /-- The key of a mapping's own value. -/
  | default
  /-- One of the marks that stand in front of nodes; it means nothing alone. -/
  | mark
  | text
deriving DecidableEq

namespace PlainKind

open Shape

def sign : Shape := maybe (oneOf "-+")

/-- Digits, among which underscores may stand. -/
def digits (s : String) : Shape := many (oneOf ("_" ++ s))

/-- A decimal digit and further ones, among which underscores may stand. -/
def wholeNumber : Shape := digit ++ digits "0123456789"

/-- A part of a number in base sixty, after its colon. -/
def sixtieth : Shape := word ":" ++ maybe (oneOf "012345") ++ digit

def boolShape : Shape := words [
  "yes", "Yes", "YES", "no", "No", "NO", "true", "True", "TRUE", "false", "False", "FALSE",
  "on", "On", "ON", "off", "Off", "OFF"]

/-- The power of ten of a decimal; its sign is not maybe. -/
def power : Shape := maybe (oneOf "eE" ++ oneOf "-+" ++ repeated digit)

def decimalShape : Shape :=
  (sign ++ wholeNumber ++ word "." ++ digits "0123456789" ++ power) |||
  (word "." ++ wholeNumber ++ power) |||
  (sign ++ wholeNumber ++ repeated sixtieth ++ word "." ++ digits "0123456789") |||
  (sign ++ word "." ++ words ["inf", "Inf", "INF"]) |||
  (word "." ++ words ["nan", "NaN", "NAN"])

def integerShape : Shape :=
  sign ++ (
    (word "0b" ++ repeated (oneOf "01_")) |||
    (word "0" ++ digits "01234567") |||
    (oneOf "123456789" ++ digits "0123456789") |||
    (word "0x" ++ repeated (oneOf "0123456789abcdefABCDEF_")) |||
    (oneOf "123456789" ++ digits "0123456789" ++ repeated sixtieth))

def nullShape : Shape := words ["", "~", "null", "Null", "NULL"]

/-- A blank of either kind. -/
def blank : Shape := oneOf " \t"

/-- A time of day and, if it is given, the offset of its zone. -/
def timeOfDay : Shape :=
  (oneOf "Tt" ||| repeated blank) ++ digit ++ maybe digit ++ word ":" ++ times 2 digit ++
    word ":" ++ times 2 digit ++ maybe (word "." ++ many digit) ++
    maybe (many blank ++
      (word "Z" ||| (oneOf "-+" ++ digit ++ maybe digit ++ maybe (word ":" ++ times 2 digit))))

def timestampShape : Shape :=
  (times 4 digit ++ word "-" ++ times 2 digit ++ word "-" ++ times 2 digit) |||
  (times 4 digit ++ word "-" ++ digit ++ maybe digit ++ word "-" ++ digit ++ maybe digit ++
    timeOfDay)

/-- The shapes in the order in which they are tried. -/
def shapes : List (PlainKind × Shape) := [
  (bool, boolShape), (decimal, decimalShape), (integer, integerShape), (merge, word "<<"),
  (null, nullShape), (timestamp, timestampShape), (default, word "="), (mark, oneOf "!&*")]

/-- A text without the line break at its end, unless it is nothing else. -/
def dropLastBreak (t : Text) : Text :=
  match t.reverse with
  | last :: before => if last = '\n' && !before.isEmpty then before.reverse else t
  | [] => t

/-- What an unquoted scalar means. -/
def ofText (t : Text) : PlainKind :=
  match shapes.find? fun (_, shape) => shape.accepts (dropLastBreak t) with
  | some (kind, _) => kind
  | none => .text

end PlainKind

end IndexChain.Yaml
