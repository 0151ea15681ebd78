import IndexChain.Proofs.Moment.Stamp
import IndexChain.Proofs.Moment.Words

/-!
# Places — which digits of a stamp are read as which field

Stamps are published with fourteen digits before the point: four of the year and two of every other
field. What is read is less strict. The words of a stamp follow each other without separators, and
every field but the year may do with one digit, so a stamp that lacks a digit can be a stamp of
another date.

**The fields stand in their places exactly if there are fourteen digits before the point**
(`standsInPlace_iff_of_ofStamp`). There are never more code points than that, so a stamp with a
digit too many is refused.
-/

namespace IndexChain

namespace Moment

open Text (Spells)

variable {m shown : Moment}

/-! ## 1. The words of a stamp -/

/-- The words of a stamp, one for each field and one for the blanks. -/
structure StampWords where
  year : Text
  month : Text
  day : Text
  hour : Text
  minute : Text
  second : Text
  fraction : Text
  blanks : Text
  offset : Text

namespace StampWords

/-- What stands before the point. -/
def head (w : StampWords) : Text :=
  w.year ++ (w.month ++ (w.day ++ (w.hour ++ (w.minute ++ w.second))))

/-- What stands behind it. -/
def tail (w : StampWords) : Text := w.fraction ++ (w.blanks ++ w.offset)

def text (w : StampWords) : Text := w.head ++ CodePoint.ofChar '.' :: w.tail

/-- The words say what a clock shows, and in which zone. -/
structure Say (w : StampWords) (m : Moment) : Prop where
  year : Field.year.Says w.year m.date.year
  month : Field.month.Says w.month m.date.month
  day : Field.day.Says w.day m.date.day
  hour : Field.hour.Says w.hour m.hour
  minute : Field.minute.Says w.minute m.minute
  second : Field.second.Says w.second m.second
  fraction : Field.fraction.Says w.fraction m.micros
  blanks : w.blanks ≠ [] ∧ ∀ c ∈ w.blanks, c.isWhitespace = true
  offset : Field.SaysOffset w.offset m.zone.offset

end StampWords

theorem eq_point_of_sameLetter {c : CodePoint} (h : CodePoint.sameLetter '.' c = true) :
    c = CodePoint.ofChar '.' := by
  have hpoint : (CodePoint.ofChar '.').val = 46 := rfl
  apply CodePoint.ext
  rw [hpoint]
  simp only [CodePoint.sameLetter, hpoint, beq_iff_eq] at h
  split at h
  · next hcapital => simp at hcapital
  split at h
  · next hcapital =>
    simp only [Bool.and_eq_true, decide_eq_true_eq] at hcapital
    omega
  · exact h.symm

theorem fields_of_ofReading? {r : Reading} {lead : Option Int} {zone : Zone}
    (hoffset : r.offset = some lead) (h : ofReading? r zone = some m) :
    m.date = ⟨r.year, r.month, r.day⟩ ∧ m.hour = r.hour ∧ m.minute = r.minute ∧
    m.second = r.second ∧
      m.micros = r.micros ∧ lead = some m.zone.offset := by
  simp only [ofReading?, hoffset] at h
  cases lead with
  | none => cases h
  | some lead =>
    obtain ⟨stated, hstated, hfields⟩ := Option.bind_eq_some_iff.mp h
    obtain ⟨hdate, hhour, hminute, hsecond, hmicros, rfl⟩ := fields_of_ofFields? hfields
    exact ⟨hdate, hhour, hminute, hsecond, hmicros, by rw [Zone.offset_of_ofMicros? hstated]⟩

/-- Whatever is read as a stamp consists of words that say what the clock shows. -/
theorem exists_words_of_cuts {words : List Text} {r : Reading} {zone : Zone}
    (hcuts : stampLayout.Cuts words {} r) (hshown : ofReading? r zone = some shown) :
    ∃ w : StampWords, words.flatten = w.text ∧ w.Say shown ∧ r.offset.isNone = false := by
  obtain ⟨year, words, _, rfl, ⟨hyear⟩, hcuts⟩ := hcuts.uncons
  obtain ⟨month, words, _, rfl, ⟨hmonth⟩, hcuts⟩ := hcuts.uncons
  obtain ⟨day, words, _, rfl, ⟨hday⟩, hcuts⟩ := hcuts.uncons
  obtain ⟨hour, words, _, rfl, ⟨hhour⟩, hcuts⟩ := hcuts.uncons
  obtain ⟨minute, words, _, rfl, ⟨hminute⟩, hcuts⟩ := hcuts.uncons
  obtain ⟨second, words, _, rfl, ⟨hsecond⟩, hcuts⟩ := hcuts.uncons
  obtain ⟨_, words, _, rfl, hpoint, hcuts⟩ := hcuts.uncons
  obtain ⟨fraction, words, _, rfl, ⟨hfraction⟩, hcuts⟩ := hcuts.uncons
  obtain ⟨blanks, words, _, rfl, hblanks, hcuts⟩ := hcuts.uncons
  obtain ⟨offset, words, _, rfl, hzone, hcuts⟩ := hcuts.uncons
  cases hcuts
  cases hpoint with
  | literal hpoint =>
  cases hblanks with
  | blanks hne hblanks =>
  cases hzone with
  | field hnone => cases hnone
  | @offset _ lead _ hoffset =>
    obtain rfl := eq_point_of_sameLetter hpoint
    obtain ⟨hdate, hhours, hminutes, hseconds, hmicros, rfl⟩ := fields_of_ofReading? rfl hshown
    refine ⟨⟨year, month, day, hour, minute, second, fraction, blanks, offset⟩, ?_, ?_, rfl⟩
    · simp [StampWords.text, StampWords.head, StampWords.tail]
    · constructor
      · exact hdate ▸ hyear
      · exact hdate ▸ hmonth
      · exact hdate ▸ hday
      · exact hhours ▸ hhour
      · exact hminutes ▸ hminute
      · exact hseconds ▸ hsecond
      · exact hmicros ▸ hfraction
      · exact ⟨hne, hblanks⟩
      · exact hoffset _ rfl

/-! ## 2. The stamps that are read -/

theorem exists_words_of_ofStamp {text : Text} (h : ofStamp text = .ok m) :
    ∃ w : StampWords, ∃ shown, text.strip = w.text ∧ w.Say shown ∧ shown.inZone? .utc = some m := by
  unfold ofStamp ofText at h
  rw [ofPattern?_stampPattern] at h
  simp only at h
  split at h
  · next reading hread =>
    split at h
    · cases h
    · next shown hshown =>
      obtain ⟨words, htext, hcuts⟩ := Layout.cuts_of_read? hread
      obtain ⟨w, hw, hsay, hoffset⟩ := exists_words_of_cuts hcuts hshown
      refine ⟨w, shown, ?_, hsay, ?_⟩
      · rw [htext, List.append_nil, hw]
      · rw [hoffset] at h
        simp only [Bool.false_eq_true, if_false] at h
        split at h
        · cases h
        · next there hthere => rw [hthere, Except.ok.inj h]
  · cases h

/-! ## 3. Places -/

/-- Fourteen digits of which each field has its own: the year the first four, and then two each. -/
structure StandsInPlace (head : Text) (m : Moment) : Prop where
  length : head.length = 14
  year : Spells (head.take 4) m.date.year
  month : Spells ((head.drop 4).take 2) m.date.month
  day : Spells ((head.drop 6).take 2) m.date.day
  hour : Spells ((head.drop 8).take 2) m.hour
  minute : Spells ((head.drop 10).take 2) m.minute
  second : Spells ((head.drop 12).take 2) m.second

theorem StandsInPlace.isSome_digit? {head : Text} (h : StandsInPlace head m) :
    ∀ c ∈ head, c.digit?.isSome := by
  have hcut (k width : Nat) : head.drop k = (head.drop k).take width ++ head.drop (k + width) := by
    rw [← List.drop_drop, List.take_append_drop]
  have hend : head.drop 14 = [] := List.drop_eq_nil_of_le (Nat.le_of_eq h.length)
  intro c hc
  rw [← List.take_append_drop 4 head, hcut 4 2, hcut 6 2, hcut 8 2, hcut 10 2, hcut 12 2, hend]
    at hc
  simp only [List.mem_append, List.not_mem_nil, or_false] at hc
  obtain hc | hc | hc | hc | hc | hc := hc
  · exact h.year.isSome_digit? c hc
  · exact h.month.isSome_digit? c hc
  · exact h.day.isSome_digit? c hc
  · exact h.hour.isSome_digit? c hc
  · exact h.minute.isSome_digit? c hc
  · exact h.second.isSome_digit? c hc

namespace StampWords

variable {w : StampWords}

/-- Only a day may have a blank in it. -/
theorem Say.isSome_digit? (h : w.Say m) :
    ∀ c ∈ w.head, c.digit?.isSome ∨ c = CodePoint.ofChar ' ' := by
  intro c hc
  simp only [head, List.mem_append] at hc
  obtain hc | hc | hc | hc | hc | hc := hc
  · exact .inl (h.year.2.isSome_digit? c hc)
  · exact .inl (h.month.2.isSome_digit? c hc)
  · obtain hday | ⟨digit, hword, -, hdigit⟩ := h.day
    · exact .inl (hday.2.isSome_digit? c hc)
    · rw [hword] at hc
      obtain rfl | hc := List.mem_cons.mp hc
      · exact .inr rfl
      · exact .inl (hdigit.isSome_digit? c hc)
  · exact .inl (h.hour.2.isSome_digit? c hc)
  · exact .inl (h.minute.2.isSome_digit? c hc)
  · exact .inl (h.second.2.isSome_digit? c hc)

theorem Say.point_not_mem_head (h : w.Say m) : CodePoint.ofChar '.' ∉ w.head := by
  intro hmem
  obtain hdigit | hblank := h.isSome_digit? _ hmem
  · cases hdigit
  · exact absurd hblank (by decide)

theorem Say.length_day (h : w.Say m) : w.day.length ≤ 2 := by
  obtain ⟨hlength, -⟩ | ⟨digit, hword, hlength, -⟩ := h.day
  · omega
  · rw [hword, List.length_cons, hlength]

theorem length_head (w : StampWords) :
    w.head.length = w.year.length + w.month.length + w.day.length + w.hour.length +
      w.minute.length + w.second.length := by
  simp only [head, List.length_append]
  omega

theorem Say.length_head_le (h : w.Say m) : w.head.length ≤ 14 := by
  have hyear := h.year.1
  have hmonth := h.month.1
  have hday := h.length_day
  have hhour := h.hour.1
  have hminute := h.minute.1
  have hsecond := h.second.1
  rw [w.length_head]
  omega

/-- Words that make fourteen digits together have their full width. -/
theorem Say.standsInPlace (h : w.Say m) (hlength : w.head.length = 14)
    (hdigits : ∀ c ∈ w.head, c.digit?.isSome) : StandsInPlace w.head m := by
  have hblank : CodePoint.ofChar ' ' ∉ w.day := by
    intro hmem
    have hhead : CodePoint.ofChar ' ' ∈ w.head := by simp [head, hmem]
    cases hdigits _ hhead
  obtain hday | ⟨digit, hword, -⟩ := h.day
  · obtain ⟨hyear, year⟩ := h.year
    obtain ⟨hmonth, month⟩ := h.month
    obtain ⟨hday, day⟩ := hday
    obtain ⟨hhour, hour⟩ := h.hour
    obtain ⟨hminute, minute⟩ := h.minute
    obtain ⟨hsecond, second⟩ := h.second
    have hsum := w.length_head
    have hmonth : w.month.length = 2 := by omega
    have hday : w.day.length = 2 := by omega
    have hhour : w.hour.length = 2 := by omega
    have hminute : w.minute.length = 2 := by omega
    have hsecond : w.second.length = 2 := by omega
    have hnext {k : Nat} {word rest : Text} (hword : word.length = 2)
        (hhead : w.head.drop k = word ++ rest) : w.head.drop (k + 2) = rest := by
      rw [← List.drop_drop, hhead, List.drop_left' hword]
    have hfour : w.head.drop 4 = w.month ++ _ := List.drop_left' hyear
    have hsix : w.head.drop 6 = w.day ++ _ := hnext hmonth hfour
    have height : w.head.drop 8 = w.hour ++ _ := hnext hday hsix
    have hten : w.head.drop 10 = w.minute ++ _ := hnext hhour height
    have htwelve : w.head.drop 12 = w.second := hnext hminute hten
    constructor
    · exact hlength
    · rw [head, List.take_left' hyear]
      exact year
    · rw [hfour, List.take_left' hmonth]
      exact month
    · rw [hsix, List.take_left' hday]
      exact day
    · rw [height, List.take_left' hhour]
      exact hour
    · rw [hten, List.take_left' hminute]
      exact minute
    · rw [htwelve, List.take_of_length_le (Nat.le_of_eq hsecond)]
      exact second
  · exact absurd (hword ▸ List.mem_cons_self) hblank

end StampWords

/-- **What is read of a stamp stands in its place exactly if there are fourteen digits before the
point**, and there are never more. The moment is in UTC, and it shows what the stamp says in the
zone that the stamp states. -/
theorem standsInPlace_iff_of_ofStamp {text : Text} (h : ofStamp text = .ok m) :
    ∃ w : StampWords, ∃ shown,
      Text.cutAt '.' text.strip = some (w.head, w.tail) ∧
      (m.zone = .utc ∧ m.inZone? shown.zone = some shown) ∧
      w.Say shown ∧ w.head.length ≤ 14 ∧
      (StandsInPlace w.head shown ↔ w.head.length = 14 ∧ ∀ c ∈ w.head, c.digit?.isSome) := by
  obtain ⟨w, shown, htext, hsay, hutc⟩ := exists_words_of_ofStamp h
  obtain ⟨hrange, hinstant, hzone⟩ := inZone?_eq_some_iff.mp hutc
  have hcut : Text.cutAt '.' text.strip = some (w.head, w.tail) := by
    rw [htext, StampWords.text, Text.cutAt_append hsay.point_not_mem_head]
  have hshown : m.inZone? shown.zone = some shown :=
    inZone?_eq_some_iff.mpr ⟨hinstant ▸ hrange, hinstant.symm, rfl⟩
  refine ⟨w, shown, hcut, ⟨hzone, hshown⟩, hsay, hsay.length_head_le, ?_⟩
  constructor
  · intro hplace
    exact ⟨hplace.length, hplace.isSome_digit?⟩
  · rintro ⟨hlength, hdigits⟩
    exact hsay.standsInPlace hlength hdigits

/-- Two hours ahead of UTC it is half past twelve. -/
theorem standsInPlace_ahead :
    ∃ m, ofStamp "20240115123000.123 +0200" = .ok m ∧
      ∃ shown, m.inZone? shown.zone = some shown ∧ StandsInPlace "20240115123000" shown := by
  have hread : (ofStamp "20240115123000.123 +0200").toOption.isSome = true := by decide +kernel
  have hcut : Text.cutAt '.' (Text.strip "20240115123000.123 +0200") =
      some (("20240115123000" : Text), ("123 +0200" : Text)) := by
    decide +kernel
  cases hm : ofStamp "20240115123000.123 +0200" with
  | error e =>
    rw [hm] at hread
    cases hread
  | ok m =>
    obtain ⟨w, shown, hwords, ⟨-, hshown⟩, -, -, hplace⟩ := standsInPlace_iff_of_ofStamp hm
    have hhead : w.head = "20240115123000" :=
      (Prod.mk.inj (Option.some.inj (hwords.symm.trans hcut))).1
    rw [hhead] at hplace
    exact ⟨m, rfl, shown, hshown, hplace.mpr ⟨rfl, by decide +kernel⟩⟩

/-- The fifteenth of January with a digit too few is the fifth of November. -/
theorem november_of_thirteen_digits :
    (∃ m, ofStamp "2024115103000.123 +0000" = .ok m ∧
      (m.date, m.hour, m.minute, m.second) = (⟨2024, 11, 5⟩, 10, 30, 0)) ∧
    ∃ head rest, Text.cutAt '.' (Text.strip "2024115103000.123 +0000") = some (head, rest) ∧
    head.length = 13 := by
  have hread : (ofStamp "2024115103000.123 +0000").toOption.map
      (fun m => (m.date, m.hour, m.minute, m.second)) = some (⟨2024, 11, 5⟩, 10, 30, 0) := by
    decide +kernel
  have hcut : Text.cutAt '.' (Text.strip "2024115103000.123 +0000") =
      some (("2024115103000" : Text), ("123 +0000" : Text)) := by
    decide +kernel
  refine ⟨?_, _, _, hcut, rfl⟩
  cases hm : ofStamp "2024115103000.123 +0000" with
  | error e =>
    rw [hm] at hread
    cases hread
  | ok m =>
    rw [hm] at hread
    exact ⟨m, rfl, Option.some.inj hread⟩

end Moment

end IndexChain
