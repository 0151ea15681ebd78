import IndexChain.Calendar

/-!
# The calendar — days and their numbers

A number below `dayCount` is taken apart into cycles, centuries, fours and years, and what is left
is the day of a year (`yearOfDay_splitYears`); that is taken apart into a month and a day of it
(`dayOfMonth_splitMonths`). So **every such number is the number of a day that the calendar has**
(`dayNumber_ofDayNumber`, `isValid_ofDayNumber`). There is one way only to take a number apart, and
so a day is found again by its number (`ofDayNumber_dayNumber`).
-/

namespace IndexChain

namespace Calendar

/-- The number of days of a year. -/
def yearLength (leap : Bool) : Nat := if leap then 366 else 365

/-- The last year of a four is a leap year, except in the last four of a century that is not the
    last of its cycle. -/
theorem isLeap_eq {cycles centuries fours years : Nat} (hcenturies : centuries ≤ 3)
    (hfours : fours ≤ 24) (hyears : years ≤ 3) :
    isLeap (400 * cycles + 100 * centuries + 4 * fours + years + 1) =
      (years == 3 && (fours != 24 || centuries == 3)) := by
  rw [Bool.eq_iff_iff]
  simp only [isLeap, Bool.and_eq_true, Bool.or_eq_true, beq_iff_eq, bne_iff_ne]
  omega

theorem daysBeforeYear_eq {cycles centuries fours years : Nat} (hcenturies : centuries ≤ 3)
    (hfours : fours ≤ 24) (hyears : years ≤ 3) :
    daysBeforeYear (400 * cycles + 100 * centuries + 4 * fours + years + 1) =
      146097 * cycles + 36524 * centuries + 1461 * fours + 365 * years := by
  simp only [daysBeforeYear]
  omega

/-- What a day's number is made of. -/
structure YearOfDay (n year day : Nat) : Prop where
  pos : 1 ≤ year
  le : n < dayCount → year ≤ 9999
  number : daysBeforeYear year + day = n
  day_lt : day < yearLength (isLeap year)

theorem yearOfDay_splitYears (n : Nat) : YearOfDay n (splitYears n).1 (splitYears n).2 := by
  unfold splitYears
  dsimp only
  generalize hcycles : n / 146097 = cycles
  generalize hcenturies : min (n % 146097 / 36524) 3 = centuries
  generalize hfours : (n % 146097 - centuries * 36524) / 1461 = fours
  generalize hyears : min ((n % 146097 - centuries * 36524) % 1461 / 365) 3 = years
  have hcenturies' : centuries ≤ 3 := by omega
  have hfours' : fours ≤ 24 := by omega
  have hyears' : years ≤ 3 := by omega
  refine ⟨by omega, fun hn => ?_, ?_, ?_⟩
  · simp only [dayCount] at hn
    omega
  · rw [daysBeforeYear_eq hcenturies' hfours' hyears']
    omega
  · rw [isLeap_eq hcenturies' hfours' hyears', yearLength]
    split
    · omega
    · -- a day more would belong to a leap year
      rename_i hleap
      simp only [Bool.and_eq_true, Bool.or_eq_true, beq_iff_eq, bne_iff_ne] at hleap
      omega

theorem daysBeforeYear_succ {year : Nat} (h : 1 ≤ year) :
    daysBeforeYear (year + 1) = daysBeforeYear year + yearLength (isLeap year) := by
  obtain ⟨past, rfl⟩ := Nat.exists_eq_add_of_le' h
  have hle : past / 100 ≤ past / 4 := by omega
  rw [yearLength]
  cases hleap : isLeap (past + 1) with
  | true =>
    simp only [isLeap, Bool.and_eq_true, Bool.or_eq_true, beq_iff_eq, bne_iff_ne] at hleap
    have hfours : (past + 1) / 4 = past / 4 + 1 := by omega
    have hrest : (past + 1) / 400 + past / 100 = past / 400 + (past + 1) / 100 := by omega
    simp only [daysBeforeYear, Nat.add_sub_cancel, hfours, if_true]
    omega
  | false =>
    simp only [isLeap, Bool.and_eq_false_iff, Bool.or_eq_false_iff, beq_eq_false_iff_ne,
      bne_eq_false_iff_eq] at hleap
    have hcycles : (past + 1) / 400 = past / 400 := by omega
    have hrest : (past + 1) / 4 + past / 100 = past / 4 + (past + 1) / 100 := by omega
    simp only [daysBeforeYear, Nat.add_sub_cancel, hcycles, Bool.false_eq_true, if_false]
    omega

theorem daysBeforeYear_mono {year year' : Nat} (hpos : 1 ≤ year) (h : year ≤ year') :
    daysBeforeYear year ≤ daysBeforeYear year' := by
  induction h with
  | refl => exact Nat.le_refl _
  | step h ih =>
    rw [Nat.succ_eq_add_one, daysBeforeYear_succ (Nat.le_trans hpos h)]
    exact Nat.le_add_right_of_le ih

/-- A day is made of a year and a day of it in one way. -/
theorem YearOfDay.unique {n year year' day day' : Nat} (h : YearOfDay n year day)
    (h' : YearOfDay n year' day') : year = year' ∧ day = day' := by
  -- the later of two years would begin behind the end of the other
  have hle {year year' day day' : Nat} (h : YearOfDay n year day) (h' : YearOfDay n year' day') :
      year' ≤ year := by
    refine Nat.le_of_not_lt fun hlt => ?_
    have hnext := daysBeforeYear_mono (Nat.le_add_left 1 year) hlt
    rw [daysBeforeYear_succ h.pos] at hnext
    have hnumber := h.number
    have hnumber' := h'.number
    have hday := h.day_lt
    omega
  obtain rfl := Nat.le_antisymm (hle h' h) (hle h h')
  have hnumber := h.number
  have hnumber' := h'.number
  exact ⟨rfl, by omega⟩

/-- A day of a year, numbered from 0, is a day of one of its months. -/
theorem dayOfMonth_splitMonths {lengths : List Nat} {day : Nat}
    (h : day < lengths.foldr (· + ·) 0) :
    (splitMonths lengths day).1 < lengths.length ∧
    (splitMonths lengths day).2 < lengths[(splitMonths lengths day).1]?.getD 0 ∧
    (lengths.take (splitMonths lengths day).1).foldr (· + ·) 0 + (splitMonths lengths day).2 =
      day := by
  induction lengths generalizing day with
  | nil => simp at h
  | cons length rest ih =>
    rw [List.foldr_cons] at h
    unfold splitMonths
    split
    next hday => simpa using hday
    next hday =>
      have hrest : day - length < rest.foldr (· + ·) 0 := by omega
      obtain ⟨hmonth, hlt, hsum⟩ := ih hrest
      simp only [List.length_cons, List.getElem?_cons_succ, List.take_succ_cons, List.foldr_cons]
      exact ⟨by omega, hlt, by omega⟩

/-- And a day of a month is found again by its number in the year. -/
theorem splitMonths_eq {lengths : List Nat} {month day : Nat} (h : day < lengths[month]?.getD 0) :
    splitMonths lengths ((lengths.take month).foldr (· + ·) 0 + day) = (month, day) ∧
      (lengths.take month).foldr (· + ·) 0 + day < lengths.foldr (· + ·) 0 := by
  induction lengths generalizing month with
  | nil => simp at h
  | cons length rest ih =>
    cases month with
    | zero =>
      have hday : day < length := by simpa using h
      simp [splitMonths, hday]
      omega
    | succ month =>
      obtain ⟨hsplit, hlt⟩ := ih (by simpa using h)
      have hsum : length + (rest.take month).foldr (· + ·) 0 + day - length =
          (rest.take month).foldr (· + ·) 0 + day := by omega
      rw [List.take_succ_cons, List.foldr_cons, List.foldr_cons, splitMonths,
        if_neg (by omega), hsum, hsplit]
      exact ⟨rfl, by omega⟩

theorem foldr_monthLengths (leap : Bool) :
    (monthLengths leap).foldr (· + ·) 0 = yearLength leap := by
  cases leap <;> rfl

theorem daysInMonth_le (year month : Nat) : daysInMonth year month ≤ 31 := by
  have hlengths : ∀ leap, ∀ n ∈ monthLengths leap, n ≤ 31 := by decide
  unfold daysInMonth
  split
  · exact Nat.zero_le 31
  · rename_i month
    cases hlength : (monthLengths (isLeap year))[month]? with
    | none => exact Nat.zero_le 31
    | some n => exact hlengths _ n (List.mem_of_getElem? hlength)

end Calendar

namespace Date

open Calendar

theorem ofDayNumber_eq (n : Nat) :
    ofDayNumber n = ⟨(splitYears n).1,
      (splitMonths (monthLengths (isLeap (splitYears n).1)) (splitYears n).2).1 + 1,
      (splitMonths (monthLengths (isLeap (splitYears n).1)) (splitYears n).2).2 + 1⟩ := by
  unfold ofDayNumber
  obtain ⟨year, day⟩ := splitYears n
  dsimp only

/-- **The day with a number has that number.** -/
theorem dayNumber_ofDayNumber (n : Nat) : (ofDayNumber n).dayNumber = n := by
  have hyear := yearOfDay_splitYears n
  have hday := hyear.day_lt
  rw [← foldr_monthLengths] at hday
  obtain ⟨-, -, hsum⟩ := dayOfMonth_splitMonths hday
  have hnumber := hyear.number
  rw [ofDayNumber_eq, dayNumber, daysBeforeMonth]
  simp only [Nat.add_sub_cancel]
  omega

/-- **The calendar has the days of all numbers below `dayCount`.** -/
theorem isValid_ofDayNumber {n : Nat} (h : n < dayCount) : (ofDayNumber n).IsValid := by
  have hyear := yearOfDay_splitYears n
  have hday := hyear.day_lt
  rw [← foldr_monthLengths] at hday
  obtain ⟨hmonth, hlt, -⟩ := dayOfMonth_splitMonths hday
  have hlength : ∀ leap, (monthLengths leap).length = 12 := fun _ => rfl
  rw [hlength] at hmonth
  rw [ofDayNumber_eq]
  exact ⟨hyear.pos, hyear.le h, Nat.le_add_left 1 _, hmonth, Nat.le_add_left 1 _, hlt⟩

/-- **A day that the calendar has is the day of its number.** -/
theorem ofDayNumber_dayNumber {d : Date} (h : d.IsValid) : ofDayNumber d.dayNumber = d := by
  obtain ⟨year, month, day⟩ := d
  obtain ⟨hyear, hyear', hmonth, -, hday, hday'⟩ := h
  obtain ⟨month, rfl⟩ := Nat.exists_eq_add_of_le' hmonth
  obtain ⟨day, rfl⟩ := Nat.exists_eq_add_of_le' hday
  obtain ⟨hsplit, hlt⟩ :=
    splitMonths_eq (show day < (monthLengths (isLeap year))[month]?.getD 0 from hday')
  have hnumber : dayNumber ⟨year, month + 1, day + 1⟩ = daysBeforeYear year +
      (((monthLengths (isLeap year)).take month).foldr (· + ·) 0 + day) := by
    rw [dayNumber, daysBeforeMonth]
    simp only [Nat.add_sub_cancel]
    omega
  rw [foldr_monthLengths] at hlt
  have hof : YearOfDay (dayNumber ⟨year, month + 1, day + 1⟩) year
      (((monthLengths (isLeap year)).take month).foldr (· + ·) 0 + day) :=
    ⟨hyear, fun _ => hyear', hnumber.symm, hlt⟩
  obtain ⟨hsame, hsame'⟩ := (yearOfDay_splitYears _).unique hof
  rw [ofDayNumber_eq, hsame, hsame', hsplit]

end Date

end IndexChain
