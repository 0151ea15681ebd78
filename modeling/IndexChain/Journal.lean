import IndexChain.Value

/-!
# Log records

What is logged while a copy is brought up to date. A record has a level and the name of the part
that logs it; a threshold decides whether it is kept.
-/

namespace IndexChain

/-- How much a record matters. -/
inductive Level
  | debug
  | info
  | warning
  | error
  | critical
deriving DecidableEq

namespace Level

/-- The rank of a level; thresholds are ranks. -/
def rank : Level → Int
  | debug => 10
  | info => 20
  | warning => 30
  | error => 40
  | critical => 50

/-- The level's name in records. -/
def name : Level → String
  | debug => "debug"
  | info => "info"
  | warning => "warning"
  | error => "error"
  | critical => "critical"

/-- The level of a name in records. -/
def ofName? (t : Text) : Option Level :=
  [debug, info, warning, error, critical].find? fun l => Text.ofString l.name = t

/-- The capital of a code point whose capital is an ASCII letter; other code points stay. -/
def capital (c : CodePoint) : CodePoint :=
  if 0x61 ≤ c.val && c.val ≤ 0x7A then .ofNat (c.val - 0x20)
  else if c.val == 0x131 then 'I'
  else if c.val == 0x17F then 'S'
  else c

def thresholds : List (String × Int) := [
  ("NOTSET", 0), ("DEBUG", 10), ("INFO", 20), ("WARN", 30), ("WARNING", 30), ("ERROR", 40),
  ("FATAL", 50), ("CRITICAL", 50)]

/-- Why a setting names no threshold. -/
inductive SettingError
  | unknown
  /-- It names the layout of records, a text that is no threshold. -/
  | layout
  /-- It names the table of layouts. -/
  | layoutTable
deriving DecidableEq

/-- The threshold that a setting names, in letters of either case. -/
def threshold (setting : Text) : Except SettingError Int :=
  let name := setting.map capital
  match thresholds.find? fun (known, _) => Text.ofString known = name with
  | some (_, rank) => .ok rank
  | none =>
    if name = "BASIC_FORMAT" then .error .layout
    else if name = "_STYLES" then .error .layoutTable
    else .error .unknown

end Level

/-- A log record. -/
structure Record where
  level : Level
  /-- The part that logs. -/
  logger : Text
  event : Text
  fields : List (Text × Value) := []

namespace Record

/-- The name above all loggers. -/
def loggerRoot : Text := "maven_index_sync"

/-- The full name of a logger; one that is not below the root is put there. -/
def loggerName (name : Text) : Text :=
  if name.beginsWith loggerRoot then name else loggerRoot ++ "." ++ name

/-- A record of one of the library's own parts. -/
def ofPart (level : Level) (part : String) (event : String) (fields : List (Text × Value)) :
    Record :=
  ⟨level, loggerRoot ++ "." ++ part, event, fields⟩

/-- Whether the record is kept under a threshold. -/
def isKept (threshold : Int) (r : Record) : Bool := threshold ≤ r.level.rank

/-- The names of the fields that every record has; `timestamp` is left to whoever writes it down. -/
def ownFields : List Text := ["event", "level", "logger", "timestamp"]

/-- The record as a mapping. A field of its own with one of the names every record uses is lost. -/
def value (r : Record) : Value :=
  let own : List (Text × Value) :=
    [("event", .text r.event), ("level", .text r.level.name), ("logger", .text r.logger)]
  .record (own ++ r.fields.filter fun (name, _) => !ownFields.contains name)

end Record

end IndexChain
