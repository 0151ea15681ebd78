import IndexChain.Moment.Stamp
import IndexChain.Proofs.Moment.Layout

/-!
# Written stamps — what is written is read back

A stamp is written without separators: fourteen digits in a row, milliseconds, and the offset. As
long as the year has four digits **the stamp of a moment is read as that moment, to the
millisecond** (`ofText_stampText`): all fields have their full width, so the reading of full width
is the first that is tried, and it gets through.

A year of fewer digits is written in fewer, and then the digits of the stamp are cut up differently.
Offsets may be of any number of seconds; the fraction of a second that an offset may have as well is
written but not read in this way.
-/

namespace IndexChain

namespace Moment

open Text (decimals)

variable {m w : Moment} {zone : Zone}

/-! ## 1. The layout of stamps -/

/-- The layout that the pattern of stamps spells. -/
def stampLayout : Layout :=
  [.field .year, .field .month, .field .day, .field .hour, .field .minute, .field .second,
    .literal (CodePoint.ofChar '.'), .field .fraction, .blanks, .field .zone]

theorem ofPattern?_stampPattern :
    Layout.ofPattern? stampPattern = some stampLayout := by decide +kernel

/-- The moment without what is below its milliseconds. -/
def toMillis (m : Moment) : Moment :=
  ⟨m.clock - m.clock % 1000, m.zone, Nat.lt_of_le_of_lt (Nat.sub_le _ _) m.clock_lt⟩

theorem clock_toMillis (m : Moment) :
    m.toMillis.clock = m.clock - m.micros + m.micros / 1000 * 1000 := by
  show m.clock - m.clock % 1000 = _
  rw [micros, microsPerSecond_eq]
  omega

/-- The stamp of what a clock shows. -/
def stamp (m : Moment) : Text :=
  decimals 4 m.date.year ++ (decimals 2 m.date.month ++ (decimals 2 m.date.day ++
    (decimals 2 m.hour ++ (decimals 2 m.minute ++ (decimals 2 m.second ++
      (CodePoint.ofChar '.' :: (decimals 3 (m.micros / 1000) ++
        (CodePoint.ofChar ' ' :: m.zone.text []))))))))

theorem stampText_eq_stamp (hw : m.inZone? zone = some w) (hyear : 1000 ≤ w.date.year) :
    stampText m zone = .ok w.stamp := by
  obtain ⟨-, hyear', -, hmonth, -, hday⟩ := w.isValid_date
  have hhour := w.hour_lt
  have hminute := w.minute_lt
  have hsecond := w.second_lt
  have hmicros := w.micros_lt
  rw [microsPerSecond_eq] at hmicros
  have hmonthDays := Calendar.daysInMonth_le w.date.year w.date.month
  have hyears : Text.ofNat w.date.year = decimals 4 w.date.year :=
    Text.ofNat_eq_decimals hyear (show w.date.year < 10 ^ 4 by omega)
  have hpadded {n : Nat} (hn : n < 100) : Text.padded 2 n = decimals 2 n :=
    Text.padded_eq_decimals hn
  have hmillis : Text.padded 3 (w.micros / 1000) = decimals 3 (w.micros / 1000) :=
    Text.padded_eq_decimals (by omega)
  have hpoint : (("." : String) : Text) = [CodePoint.ofChar '.'] := rfl
  have hblank : ((" " : String) : Text) = [CodePoint.ofChar ' '] := rfl
  simp only [stampText, hw, stamp, hyears, hmillis, hpoint, hblank,
    hpadded (show w.date.day < 100 by omega), hpadded (show w.date.month < 100 by omega),
    hpadded (show w.hour < 100 by omega),
    hpadded (show w.minute < 100 by omega), hpadded (show w.second < 100 by omega),
    List.append_assoc,
    List.cons_append, List.nil_append]

/-! ## 2. Reading a stamp -/

/-- What is read of a stamp. -/
def stampReading (m : Moment) : Reading where
  year := m.date.year
  month := m.date.month
  day := m.date.day
  hour := m.hour
  minute := m.minute
  second := m.second
  micros := m.micros / 1000 * 1000
  offset := some (some m.zone.offset)

theorem read?_stamp (hzone : (microsPerSecond : Int) ∣ m.zone.offset) :
    stampLayout.read? {} m.stamp = some (m.stampReading, []) := by
  obtain ⟨-, hyear, hmonth, hmonth', hday, hday'⟩ := m.isValid_date
  have hmicros := m.micros_lt
  rw [microsPerSecond_eq] at hmicros
  have hdays : m.date.day ≤ 31 := Nat.le_trans hday' (Calendar.daysInMonth_le _ _)
  have hblank : ∀ c ∈ (CodePoint.ofChar ' ' :: m.zone.text []).head?, c.asciiDigit? = none := by
    rintro c ⟨⟩
    rfl
  have hsign : ∀ c ∈ (m.zone.text []).head?, c.isWhitespace = false := fun c hc =>
    Zone.not_isWhitespace_of_mem_text hzone (List.mem_of_mem_head? hc)
  refine Layout.read?_of_head?
    (Piece.head?_field nofun (Field.head?_numbers (.year (by omega)) _)) ?_
  refine Layout.read?_of_head?
    (Piece.head?_field nofun (Field.head?_numbers (.month hmonth hmonth') _)) ?_
  refine Layout.read?_of_head?
    (Piece.head?_field nofun (Field.head?_numbers (.day hday hdays) _)) ?_
  refine Layout.read?_of_head?
    (Piece.head?_field nofun (Field.head?_numbers (.hour m.hour_lt) _)) ?_
  refine Layout.read?_of_head?
    (Piece.head?_field nofun (Field.head?_numbers (.minute m.minute_lt) _)) ?_
  refine Layout.read?_of_head?
    (Piece.head?_field nofun (Field.head?_numbers (.second m.second_lt) _)) ?_
  refine Layout.read?_of_head? (Piece.head?_literal _) ?_
  refine Layout.read?_of_head? (Piece.head?_field nofun (Field.head?_fraction (by omega) hblank)) ?_
  refine Layout.read?_of_head? (Piece.head?_blanks hsign) ?_
  refine Layout.read?_of_head? (Piece.head?_offset (Field.head?_offsets hzone)) ?_
  rfl

theorem strip_stamp (hzone : (microsPerSecond : Int) ∣ m.zone.offset) :
    m.stamp.strip = m.stamp := by
  refine Text.strip_eq_self (fun c hc => ?_) (fun c hc => ?_)
  · have hfirst : m.stamp.head? = some (CodePoint.decimal (m.date.year / 10 / 10 / 10 % 10)) := by
      simp [stamp, decimals]
    rw [hfirst, Option.mem_some_iff] at hc
    exact hc ▸ CodePoint.isWhitespace_decimal (Nat.mod_lt _ (by decide))
  · have hlast : m.stamp.getLast? = (m.zone.text []).getLast? := by
      obtain ⟨seconds, hseconds⟩ := m.zone.exists_seconds hzone
      simp [stamp, Zone.text_eq hseconds, List.getLast?_append, List.getLast?_cons]
    exact Zone.not_isWhitespace_of_mem_text hzone (List.mem_of_mem_getLast? (hlast ▸ hc))

/-- What is read of a stamp is the moment to the millisecond. -/
theorem ofReading?_stampReading (zone : Zone) :
    ofReading? m.stampReading zone = some m.toMillis := by
  have hmicros := m.micros_lt
  have hmillis : m.micros / 1000 * 1000 < microsPerSecond := by omega
  have hclock := m.clock_toMillis
  have hle : m.micros ≤ m.clock := Nat.mod_le _ _
  simp only [ofReading?, stampReading, Zone.ofMicros?_offset, Option.bind_eq_bind, Option.bind_some]
  rw [ofFields?_fields hmillis, ofClock?_eq_some_iff]
  refine ⟨?_, rfl⟩
  omega

/-! ## 3. Round trip -/

/-- The offsets of zones in full seconds are full milliseconds too. -/
theorem instant_toMillis (hzone : (microsPerSecond : Int) ∣ m.zone.offset) :
    m.toMillis.instant = m.instant - m.instant % 1000 := by
  rw [microsPerSecond_eq] at hzone
  show ((m.clock - m.clock % 1000 : Nat) : Int) - m.zone.offset = m.clock - m.zone.offset - _ % 1000
  rw [instant]
  omega

/-- The beginning of a millisecond is in the calendar if any moment of it is. -/
theorem inZone?_toMillis (hw : m.inZone? zone = some w)
    (hzone : (microsPerSecond : Int) ∣ zone.offset) :
    w.toMillis.inZone? zone = some w.toMillis := by
  obtain ⟨⟨hleast, hlimit⟩, hinstant, rfl⟩ := inZone?_eq_some_iff.mp hw
  have hmillis := instant_toMillis hzone
  refine inZone?_eq_some_iff.mpr ⟨⟨?_, ?_⟩, rfl, rfl⟩
  all_goals omega

/-- **A stamp is read as the moment it was written for, to the millisecond**, in whatever zone of
full seconds it is written, as long as the year has four digits there. The moment itself may be
given in any zone; that it can be shown in the zone of the stamp is all that is asked of its year in
UTC. -/
theorem ofText_stampText (hzone : (microsPerSecond : Int) ∣ zone.offset)
    (hw : m.inZone? zone = some w) (hyear : 1000 ≤ w.date.year) :
    ∃ stamp r, stampText m zone = .ok stamp ∧ ofText stampPattern zone stamp = .ok r ∧
      r.zone = zone ∧ r.instant = m.instant - m.instant % 1000 := by
  obtain ⟨-, hinstant, rfl⟩ := inZone?_eq_some_iff.mp hw
  have hoffset : w.stampReading.offset = some (some w.zone.offset) := rfl
  refine ⟨w.stamp, w.toMillis, stampText_eq_stamp hw hyear, ?_, rfl,
    hinstant ▸ instant_toMillis hzone⟩
  simp [ofText, ofPattern?_stampPattern, strip_stamp hzone, read?_stamp hzone,
    ofReading?_stampReading, hoffset, inZone?_toMillis hw hzone]

/-- Just after midnight of New Year's Day 2024 in UTC. -/
def newYear : Moment := ⟨63839664001123456, .utc, by decide⟩

/-- An hour, two minutes and three seconds behind UTC. -/
def behindUtc : Zone := ⟨-3723000000, by decide⟩

/-- It is still the old year behind UTC. -/
theorem ofText_stampText_newYear :
    stampText newYear behindUtc = .ok "20231231225758.123 -010203" ∧
    ∃ r, ofText stampPattern behindUtc "20231231225758.123 -010203" = .ok r ∧
      r.zone = behindUtc ∧ r.instant = newYear.instant - 456 := by
  have hzone : (microsPerSecond : Int) ∣ behindUtc.offset := by decide
  have hw : newYear.inZone? behindUtc = some ⟨63839660278123456, behindUtc, by decide⟩ := rfl
  have hwritten : stampText newYear behindUtc = .ok "20231231225758.123 -010203" := by
    decide +kernel
  obtain ⟨stamp, r, hstamp, hread, hr, hinstant⟩ := ofText_stampText hzone hw (by decide +kernel)
  obtain rfl := Except.ok.inj (hwritten.symm.trans hstamp)
  exact ⟨hwritten, r, hread, hr, hinstant⟩

end Moment

end IndexChain
