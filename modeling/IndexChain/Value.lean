import IndexChain.Binary64
import IndexChain.Moment
import IndexChain.Text.Latin1

/-!
# Values

The values of settings, reports and log records: scalars, lists, and mappings in the order of their
keys.

A mapping has no two keys that are the same. Numbers are the same key if they are equal, whatever
their kind, and truth values count as the numbers 0 and 1 there; the key that came first stays, with
the value that came last (`setKey`).
-/

namespace IndexChain

/-- A value of settings, of a report or of a log record. -/
inductive Value
  | null
  | bool (b : Bool)
  | int (n : Int)
  | float (x : Binary64)
  | text (t : Text)
  | bytes (content : Bytes)
  | date (d : Date)
  /-- A date with a time of day. Without a zone of its own it is kept as a moment in UTC. -/
  | moment (m : Moment) (hasZone : Bool)
  | list (items : List Value)
  | set (members : List Value)
  | mapping (pairs : List (Value × Value))
deriving Inhabited

namespace Value

/-- A mapping whose keys are texts. -/
def record (fields : List (Text × Value)) : Value :=
  mapping (fields.map fun (key, value) => (text key, value))

/-- An optional text; an absent one is null. -/
def ofText? : Option Text → Value
  | none => null
  | some t => text t

def field? (key : Text) : Value → Option Value
  | mapping pairs =>
    pairs.findSome? fun (k, v) => match k with
      | text t => if t = key then some v else none
      | _ => none
  | _ => none

/-! ## 1. Keys -/

/-- The integer that a key counts as. -/
def keyInt? : Value → Option Int
  | bool b => some (if b then 1 else 0)
  | int n => some n
  | _ => none

/-- Whether a key is a float equal to an integer. -/
def isFloatOf (n : Int) : Value → Bool
  | float x => x.isInt n
  | _ => false

/-- Whether two keys are the same. -/
def sameKey : Value → Value → Bool
  | null, null => true
  | float x, float y => x.sameNumber y
  | text s, text t => s == t
  | bytes b, bytes c => b == c
  | date d, date e => d == e
  | moment m hasZone, moment n hasZone' => hasZone == hasZone' && m.instant == n.instant
  | a, b =>
    match a.keyInt?, b.keyInt? with
    | some m, some n => m == n
    | some m, none => b.isFloatOf m
    | none, some n => a.isFloatOf n
    | none, none => false

/-- Sets what is under a key in a list of pairs: in place if the key is there, else at the end. -/
def setKey {α : Type} (key : Value) (a : α) : List (Value × α) → List (Value × α)
  | [] => [(key, a)]
  | (k, b) :: rest => if sameKey k key then (k, a) :: rest else (k, b) :: setKey key a rest

/-! ## 2. Nothing -/

/-- Values that count as nothing: null, false, zero, and whatever is empty. -/
def isEmpty : Value → Bool
  | null => true
  | bool b => !b
  | int n => n == 0
  | float x => x.isZero
  | text t => t.isEmpty
  | bytes content => content.isEmpty
  | date _ | moment .. => false
  | list items => items.isEmpty
  | set members => members.isEmpty
  | mapping pairs => pairs.isEmpty

end Value

end IndexChain
