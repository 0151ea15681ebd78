import IndexChain.Moment
import IndexChain.Proofs.Calendar

/-!
# Moments — zones and fields

**A moment shown in another zone is the same instant** (`inZone?_eq_some_iff`), and whether it can
be shown there is a question of the calendar alone: of the clock in UTC first, then of the clock in
the zone.

What a clock shows can be put together again from its fields (`ofFields?_fields`), with any fraction
of the second in place of its own; and what is put together from fields shows them
(`fields_of_ofFields?`).
-/

namespace IndexChain

theorem microsPerSecond_eq : microsPerSecond = 1000000 := rfl

theorem microsPerDay_eq : microsPerDay = 86400000000 := rfl

theorem Zone.ext {z z' : Zone} (h : z.offset = z'.offset) : z = z' := by
  cases z; cases z'; simp_all

theorem Zone.ofMicros?_offset (z : Zone) : Zone.ofMicros? z.offset = some z := dif_pos z.inDay

theorem Zone.offset_of_ofMicros? {offset : Int} {z : Zone} (h : ofMicros? offset = some z) :
    z.offset = offset := by
  unfold ofMicros? at h
  split at h
  · rw [← Option.some.inj h]
  · cases h

namespace Moment

variable {m w : Moment} {zone : Zone} {clock : Int}

theorem ext {m m' : Moment} (hclock : m.clock = m'.clock) (hzone : m.zone = m'.zone) : m = m' := by
  cases m; cases m'; simp_all

/-! ## 1. Zones -/

theorem ofClock?_eq_some_iff :
    ofClock? clock zone = some m ↔ (m.clock : Int) = clock ∧ m.zone = zone := by
  have hlt := m.clock_lt
  unfold ofClock?
  split
  next hrange =>
    rw [Option.some.injEq]
    constructor
    · rintro rfl
      exact ⟨Int.toNat_of_nonneg hrange.1, rfl⟩
    · rintro ⟨rfl, rfl⟩
      exact ext (Int.toNat_natCast m.clock) rfl
  next hrange =>
    refine iff_of_false nofun ?_
    rintro ⟨rfl, -⟩
    omega

theorem exists_ofClock?_iff :
    (∃ m, ofClock? clock zone = some m) ↔ 0 ≤ clock ∧ clock < clockLimit := by
  unfold ofClock?
  split <;> simp_all

/-- A moment can be shown in a zone if the calendar has it in UTC and there, and is the same instant
there. -/
theorem inZone?_eq_some_iff :
    m.inZone? zone = some w ↔
      (0 ≤ m.instant ∧ m.instant < clockLimit) ∧ w.instant = m.instant ∧ w.zone = zone := by
  unfold inZone?
  rw [Option.bind_eq_bind, Option.bind_eq_some_iff]
  constructor
  · rintro ⟨u, hu, hw⟩
    have hutc := (ofClock?_eq_some_iff.mp hu).1
    obtain ⟨hclock, rfl⟩ := ofClock?_eq_some_iff.mp hw
    refine ⟨exists_ofClock?_iff.mp ⟨u, hu⟩, ?_, rfl⟩
    show (w.clock : Int) - w.zone.offset = m.instant
    omega
  · rintro ⟨hrange, hinstant, rfl⟩
    obtain ⟨u, hu⟩ : ∃ u, ofClock? m.instant .utc = some u := exists_ofClock?_iff.mpr hrange
    refine ⟨u, hu, ofClock?_eq_some_iff.mpr ⟨?_, rfl⟩⟩
    rw [(ofClock?_eq_some_iff.mp hu).1, ← hinstant, instant, Int.sub_add_cancel]

/-! ## 2. Fields -/

theorem isValid_date (m : Moment) : m.date.IsValid := by
  refine Date.isValid_ofDayNumber ?_
  have hlt := m.clock_lt
  have hday : 0 < microsPerDay := by decide
  rw [dayNumber, Nat.div_lt_iff_lt_mul hday]
  exact hlt

theorem dayNumber_date (m : Moment) : m.date.dayNumber = m.clock / microsPerDay :=
  Date.dayNumber_ofDayNumber _

theorem secondOfDay_lt (m : Moment) : m.secondOfDay < 86400 := by
  rw [secondOfDay, microsPerDay_eq, microsPerSecond_eq]
  omega

theorem hour_lt (m : Moment) : m.hour < 24 := by
  have hlt := m.secondOfDay_lt
  rw [hour]
  omega

theorem minute_lt (m : Moment) : m.minute < 60 := Nat.mod_lt _ (by decide)

theorem second_lt (m : Moment) : m.second < 60 := Nat.mod_lt _ (by decide)

theorem micros_lt (m : Moment) : m.micros < microsPerSecond := Nat.mod_lt _ (by decide)

theorem secondOfDay_eq (m : Moment) : (m.hour * 60 + m.minute) * 60 + m.second = m.secondOfDay := by
  rw [hour, minute, second]
  omega

/-- The clock without its fraction of a second. -/
theorem clock_eq (m : Moment) :
    m.clock = m.date.dayNumber * microsPerDay + m.secondOfDay * microsPerSecond + m.micros := by
  rw [dayNumber_date, secondOfDay, micros, microsPerDay_eq, microsPerSecond_eq]
  omega

/-- The fields of a clock and any fraction of a second make a moment of that second. -/
theorem ofFields?_fields {micros : Nat} (h : micros < microsPerSecond) (zone : Zone) :
    ofFields? m.date m.hour m.minute m.second micros zone =
      ofClock? (m.clock - m.micros + micros) zone := by
  unfold ofFields?
  rw [if_pos ⟨m.isValid_date, m.hour_lt, m.minute_lt, m.second_lt, h⟩, secondOfDay_eq]
  congr 1
  have hclock := m.clock_eq
  omega

/-- **A clock that is set by its fields shows them.** -/
theorem fields_of_ofFields? {date : Date} {hour minute second micros : Nat}
    (h : ofFields? date hour minute second micros zone = some m) :
    m.date = date ∧ m.hour = hour ∧ m.minute = minute ∧ m.second = second ∧ m.micros = micros ∧
    m.zone = zone := by
  unfold ofFields? at h
  split at h
  · next hrange =>
    obtain ⟨hdate, hhour, hminute, hsecond, hmicros⟩ := hrange
    obtain ⟨hclock, rfl⟩ := ofClock?_eq_some_iff.mp h
    have hclock : m.clock = date.dayNumber * microsPerDay +
        ((hour * 60 + minute) * 60 + second) * microsPerSecond + micros := Int.ofNat.inj hclock
    rw [microsPerSecond_eq] at hmicros
    rw [microsPerSecond_eq, microsPerDay_eq] at hclock
    have hday : m.dayNumber = date.dayNumber := by
      rw [dayNumber, microsPerDay_eq]
      omega
    have hseconds : m.secondOfDay = (hour * 60 + minute) * 60 + second := by
      rw [secondOfDay, microsPerDay_eq, microsPerSecond_eq]
      omega
    refine ⟨?_, ?_, ?_, ?_, ?_, rfl⟩
    · rw [Moment.date, hday, Date.ofDayNumber_dayNumber hdate]
    · rw [Moment.hour, hseconds]
      omega
    · rw [Moment.minute, hseconds]
      omega
    · rw [Moment.second, hseconds]
      omega
    · rw [Moment.micros, microsPerSecond_eq]
      omega
  · cases h

end Moment

end IndexChain
