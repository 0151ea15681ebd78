import IndexChain.Fault
import IndexChain.Moment.Layout

/-!
# Publication stamps

The time of publication as an index states it: date and time without separators, milliseconds, and
the offset, as in `20240115103000.123 +0000`. Stamps are read by the layouts of
`IndexChain.Moment.Layout`, so a stamp may be less regular than what `stampText` writes.
-/

namespace IndexChain.Moment

/-- Why a stamp names no moment. -/
inductive StampError
  /-- The text does not follow the layout, or names a day or a time that does not exist. -/
  | unreadable
  /-- The moment is outside the calendar in the zone asked for. -/
  | outOfRange
deriving DecidableEq

def StampError.fault : StampError → Fault
  | unreadable => .invalidValue none
  | outOfRange => .dateOverflow

/-- The pattern of published stamps. -/
def stampPattern : Text := "%Y%m%d%H%M%S.%f %z"

/-- The moment that a reading names in the zone it states, or else in the zone given. -/
def ofReading? (r : Reading) (zone : Zone) : Option Moment := do
  let zone ←
    match r.offset with
    | none => some zone
    | some none => none
    | some (some offset) => Zone.ofMicros? offset
  ofFields? ⟨r.year, r.month, r.day⟩ r.hour r.minute r.second r.micros zone

/-- The moment a text states by a pattern, expressed in a zone. Blanks around the text do not count;
a text without an offset is in that zone already. -/
def ofText (pattern : Text) (zone : Zone) (text : Text) : Except StampError Moment :=
  match Layout.ofPattern? pattern with
  | none => .error .unreadable
  | some layout =>
    match layout.read? {} text.strip with
    | some (reading, []) =>
      match ofReading? reading zone with
      | none => .error .unreadable
      | some m =>
        if reading.offset.isNone then .ok m
        else
          match m.inZone? zone with
          | none => .error .outOfRange
          | some m => .ok m
    | _ => .error .unreadable

/-- The moment of a published stamp, in UTC. -/
def ofStamp (text : Text) : Except StampError Moment := ofText stampPattern .utc text

/-- The stamp of a moment in a zone. The year is written without leading zeros. -/
def stampText (m : Moment) (zone : Zone) : Except StampError Text :=
  match m.inZone? zone with
  | none => .error .outOfRange
  | some m =>
    let date := m.date
    .ok <| Text.ofNat date.year ++ Text.padded 2 date.month ++ Text.padded 2 date.day ++
      Text.padded 2 m.hour ++ Text.padded 2 m.minute ++ Text.padded 2 m.second ++
      "." ++ Text.padded 3 (m.micros / 1000) ++ " " ++ m.zone.text []

end IndexChain.Moment
