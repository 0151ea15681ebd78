import IndexChain.Moment.Layout
import IndexChain.Proofs.Text.Digit
import IndexChain.Proofs.Moment

/-!
# Layouts — how a regular text is read

There are often several ways to cut up a text, since a field may have one digit or two. They are
tried in order, the widest first, and the first that gets through the whole layout counts
(`Layout.read?_of_head?`). So it is enough to know the first reading of each piece:

* of a field in which all digits are written, it is the value that they write
  (`Field.head?_numbers`);
* of an offset, it is the offset (`Field.head?_offsets`), with its seconds or without them;
* of a blank in front of anything else, it is the one blank (`Piece.head?_blanks`).
-/

namespace IndexChain

open Text (decimals)
open CodePoint (decimal)

/-! ## 1. Offsets as they are written -/

namespace Zone

/-- The seconds of an offset, if it has any. -/
def secondsText (seconds : Nat) : Text := if seconds % 60 = 0 then [] else decimals 2 (seconds % 60)

theorem exists_seconds (z : Zone) (h : (microsPerSecond : Int) ∣ z.offset) :
    ∃ seconds : Nat, z.offset.natAbs = seconds * microsPerSecond :=
  ⟨z.offset.natAbs / microsPerSecond, (Nat.div_mul_cancel (Int.ofNat_dvd_left.mp h)).symm⟩

/-- The offset of a zone of full seconds, written out. -/
theorem text_eq {z : Zone} {seconds : Nat} (h : z.offset.natAbs = seconds * microsPerSecond) :
    z.text [] = CodePoint.ofChar (if z.offset < 0 then '-' else '+') ::
      (decimals 2 (seconds / 3600) ++ (decimals 2 (seconds / 60 % 60) ++ secondsText seconds)) := by
  have hinDay := z.inDay
  rw [microsPerDay_eq] at hinDay
  rw [microsPerSecond_eq] at h
  have hpadded {n : Nat} (hn : n < 100) : Text.padded 2 n = decimals 2 n :=
    Text.padded_eq_decimals hn
  have hseconds : z.offset.natAbs / microsPerSecond = seconds := by
    rw [microsPerSecond_eq]
    omega
  have hfraction : z.offset.natAbs % microsPerSecond = 0 := by
    rw [microsPerSecond_eq]
    omega
  have hfull : z.offset.natAbs % (60 * microsPerSecond) = 0 ↔ seconds % 60 = 0 := by
    rw [microsPerSecond_eq]
    omega
  have hhours : seconds / 3600 < 100 := by omega
  unfold Zone.text secondsText
  simp only [hseconds, hfraction, hfull, if_true, List.append_nil, hpadded hhours,
    hpadded (show seconds / 60 % 60 < 100 by omega), hpadded (show seconds % 60 < 100 by omega)]
  split <;> split <;> simp

/-- There are no blanks in the offset of a zone of full seconds. -/
theorem not_isWhitespace_of_mem_text {z : Zone} {c : CodePoint}
    (h : (microsPerSecond : Int) ∣ z.offset) (hc : c ∈ z.text []) : c.isWhitespace = false := by
  obtain ⟨seconds, hseconds⟩ := z.exists_seconds h
  have hdecimals {width n : Nat} (hmem : c ∈ decimals width n) : c.isWhitespace = false := by
    obtain ⟨d, hd, rfl⟩ := Text.exists_decimal_of_mem hmem
    exact CodePoint.isWhitespace_decimal hd
  rw [text_eq hseconds, List.mem_cons, List.mem_append, List.mem_append] at hc
  obtain rfl | hhours | hminutes | hwritten := hc
  · split <;> rfl
  · exact hdecimals hhours
  · exact hdecimals hminutes
  · unfold secondsText at hwritten
    split at hwritten
    · cases hwritten
    · exact hdecimals hwritten

end Zone

namespace Moment

/-! ## 2. Fields -/

/-- If the first readings get through, no others are tried. -/
theorem Layout.read?_of_head? {p : Piece} {layout : Layout} {r r' : Reading} {t t' : Text}
    {x : Reading × Text} (hfirst : (p.readings r t).head? = some (r', t'))
    (hrest : Layout.read? layout r' t' = some x) :
    Layout.read? (p :: layout) r t = some x := by
  obtain ⟨more, hreadings⟩ := List.head?_eq_some_iff.mp hfirst
  rw [Layout.read?, hreadings, List.findSome?_cons]
  simp only [hrest]

namespace Field

variable {d n least most low high : Nat} {rest : Text}

theorem asciiDigitIn_decimal (h : d < 10) :
    asciiDigitIn least most (decimal d :: rest) = if least ≤ d ∧ d ≤ most then some (d, rest)
    else none := by
  simp [asciiDigitIn, CodePoint.asciiDigit?_decimal h]

theorem anyDigit_decimal (h : d < 10) : anyDigit (decimal d :: rest) = some (d, rest) := by
  simp [anyDigit, CodePoint.digit?_decimal h]

theorem decimals_two (h : n < 100) : decimals 2 n = [decimal (n / 10), decimal (n % 10)] := by
  have htens : n / 10 % 10 = n / 10 := by omega
  simp [decimals, htens]

theorem twoDigits_inside (h : n < 100) :
    twoDigits (asciiDigitIn least most) (asciiDigitIn low high) (decimals 2 n ++ rest) =
      if (least ≤ n / 10 ∧ n / 10 ≤ most) ∧ low ≤ n % 10 ∧ n % 10 ≤ high then some (n, rest)
        else none := by
  have htens : n / 10 < 10 := by omega
  have hvalue : 10 * (n / 10) + n % 10 = n := Nat.div_add_mod n 10
  simp only [twoDigits, decimals_two h, List.cons_append, List.nil_append,
    asciiDigitIn_decimal htens]
  split
  · rename_i hrange
    simp only [hrange, true_and, Option.bind_eq_bind, Option.bind_some, asciiDigitIn_decimal
      (Nat.mod_lt n (by decide))]
    split <;> simp [hvalue]
  · rename_i hrange
    simp [hrange]

theorem twoDigits_below (h : n < 100) :
    twoDigits (asciiDigitIn least most) anyDigit (decimals 2 n ++ rest) =
      if least ≤ n / 10 ∧ n / 10 ≤ most then some (n, rest) else none := by
  have htens : n / 10 < 10 := by omega
  have hvalue : 10 * (n / 10) + n % 10 = n := Nat.div_add_mod n 10
  simp only [twoDigits, decimals_two h, List.cons_append, List.nil_append,
    asciiDigitIn_decimal htens]
  split
  · simp [anyDigit_decimal (Nat.mod_lt n (by decide)), hvalue]
  · simp

theorem twoDigits_any (h : n < 100) (rest : Text) :
    twoDigits anyDigit anyDigit (decimals 2 n ++ rest) = some (n, rest) := by
  have htens : n / 10 < 10 := by omega
  have hvalue : 10 * (n / 10) + n % 10 = n := Nat.div_add_mod n 10
  simp [twoDigits, decimals_two h, anyDigit_decimal htens, anyDigit_decimal
    (Nat.mod_lt n (by decide)), hvalue]

/-- The texts that write a field in all its digits. -/
inductive Written : Field → Nat → Text → Prop
  | year {n : Nat} : n < 10000 → Written year n (decimals 4 n)
  | month {n : Nat} : 1 ≤ n → n ≤ 12 → Written month n (decimals 2 n)
  | day {n : Nat} : 1 ≤ n → n ≤ 31 → Written day n (decimals 2 n)
  | hour {n : Nat} : n < 24 → Written hour n (decimals 2 n)
  | minute {n : Nat} : n < 60 → Written minute n (decimals 2 n)
  | second {n : Nat} : n < 60 → Written second n (decimals 2 n)

theorem decimals_four (n : Nat) : decimals 4 n = decimals 2 (n / 100) ++ decimals 2 (n % 100) := by
  have htens : n % 100 / 10 % 10 = n / 10 % 10 := by omega
  have hones : n % 100 % 10 = n % 10 := by omega
  simp [decimals, Nat.div_div_eq_div_mul, htens, hones]

/-- **A field of all its digits is read in its full width first.** -/
theorem head?_numbers {f : Field} {t : Text} (h : Written f n t) (rest : Text) :
    (f.numbers (t ++ rest)).head? = some (n, rest) := by
  cases h with
  | year hn =>
    have hvalue : 100 * (n / 100) + n % 100 = n := Nat.div_add_mod n 100
    have hhigh : n / 100 < 100 := by omega
    simp [numbers, decimals_four, twoDigits_any hhigh, twoDigits_any
      (Nat.mod_lt n (by decide)), hvalue]
  | month hleast hmost =>
    have hsmall : n < 100 := by omega
    obtain htens | htens : n / 10 = 0 ∨ n / 10 = 1 := by omega
    · have hones : 1 ≤ n % 10 ∧ n % 10 ≤ 9 := by omega
      simp [numbers, twoDigits_inside hsmall, htens, hones]
    · have hones : n % 10 ≤ 2 := by omega
      simp [numbers, twoDigits_inside hsmall, htens, hones]
  | day hleast hmost =>
    have hsmall : n < 100 := by omega
    obtain htens | htens | htens | htens : n / 10 = 0 ∨ n / 10 = 1 ∨ n / 10 = 2 ∨ n / 10 = 3 := by
      omega
    · have hones : 1 ≤ n % 10 ∧ n % 10 ≤ 9 := by omega
      simp [numbers, twoDigits_inside hsmall, twoDigits_below hsmall, htens, hones]
    · simp [numbers, twoDigits_inside hsmall, twoDigits_below hsmall, htens]
    · simp [numbers, twoDigits_inside hsmall, twoDigits_below hsmall, htens]
    · have hones : n % 10 ≤ 1 := by omega
      simp [numbers, twoDigits_inside hsmall, htens, hones]
  | hour hn =>
    have hsmall : n < 100 := by omega
    obtain htens | htens : n / 10 ≤ 1 ∨ n / 10 = 2 := by omega
    · have hnot : ¬2 ≤ n / 10 := by omega
      simp [numbers, twoDigits_inside hsmall, twoDigits_below hsmall, htens, hnot]
    · have hones : n % 10 ≤ 3 := by omega
      simp [numbers, twoDigits_inside hsmall, htens, hones]
  | minute hn =>
    have hsmall : n < 100 := by omega
    have htens : n / 10 ≤ 5 := by omega
    simp [numbers, twoDigits_below hsmall, htens]
  | second hn =>
    have hsmall : n < 100 := by omega
    have htens : n / 10 ≤ 5 := by omega
    have hnot : ¬6 ≤ n / 10 := by omega
    simp [numbers, twoDigits_inside hsmall, twoDigits_below hsmall, htens, hnot]

theorem decimals_three (n : Nat) :
    decimals 3 n = [decimal (n / 100 % 10), decimal (n / 10 % 10), decimal (n % 10)] := by
  simp [decimals, Nat.div_div_eq_div_mul]

/-- Milliseconds are all that is read of a fraction of three digits. -/
theorem head?_fraction (h : n < 1000) (hrest : ∀ c ∈ rest.head?, c.asciiDigit? = none) :
    (fraction.numbers (decimals 3 n ++ rest)).head? = some (n * 1000, rest) := by
  have hread : leadingDigits CodePoint.asciiDigit? 6 (decimals 3 n ++ rest) =
      [n / 100 % 10, n / 10 % 10, n % 10] := by
    have hend : leadingDigits CodePoint.asciiDigit? 3 rest = [] := by
      cases rest with
      | nil => rfl
      | cons c rest => simp [leadingDigits, hrest c rfl]
    have hdigit (m : Nat) : (decimal (m % 10)).asciiDigit? = some (m % 10) :=
      CodePoint.asciiDigit?_decimal (Nat.mod_lt m (by decide))
    simp only [decimals_three, List.cons_append, List.nil_append, leadingDigits, hdigit, hend]
  have hvalue : Text.digitsValue [n / 100 % 10, n / 10 % 10, n % 10] = n := by
    simp only [Text.digitsValue, List.foldl_cons, List.foldl_nil]
    omega
  show (fractionReadings CodePoint.asciiDigit? (decimals 3 n ++ rest)).head? = _
  rw [fractionReadings, hread]
  simp [List.range_succ, hvalue, decimals_three]

theorem optionalColon_decimals (h : n < 100) (rest : Text) :
    optionalColon (decimals 2 n ++ rest) = (false, decimals 2 n ++ rest) := by
  have hne : decimal (n / 10) ≠ CodePoint.ofChar ':' := by
    intro heq
    have hval := CodePoint.val_decimal (d := n / 10) (by omega)
    rw [heq] at hval
    have hcolon : (CodePoint.ofChar ':').val = 58 := rfl
    omega
  simp [optionalColon, decimals_two h, hne]

theorem head?_secondsReadings (seconds : Nat) :
    ∃ colon, (secondsReadings (Zone.secondsText seconds)).head? =
      some (colon, seconds % 60 * microsPerSecond, []) ∧ colon.getD false = false := by
  unfold Zone.secondsText
  split
  next hnone =>
    rw [hnone]
    exact ⟨none, rfl, rfl⟩
  next hsome =>
    have hsmall : seconds % 60 < 100 := by omega
    have hread : twoDigits (asciiDigitIn 0 5) anyDigit (decimals 2 (seconds % 60) ++ []) =
        some (seconds % 60, []) := by
      rw [twoDigits_below hsmall, if_pos (by omega)]
    have hcolon := optionalColon_decimals hsmall []
    simp only [List.append_nil] at hread hcolon
    refine ⟨some false, ?_, rfl⟩
    simp [secondsReadings, hcolon, hread]

/-- **The offset of a zone of full seconds is read as it was written.** -/
theorem head?_offsets {z : Zone} (h : (microsPerSecond : Int) ∣ z.offset) :
    (offsets (z.text [])).head? = some (some z.offset, []) := by
  obtain ⟨seconds, hseconds⟩ := z.exists_seconds h
  have hinDay := z.inDay
  rw [microsPerDay_eq] at hinDay
  rw [Zone.text_eq hseconds]
  rw [microsPerSecond_eq] at hseconds
  have hhours (rest : Text) := twoDigits_any (show seconds / 3600 < 100 by omega) rest
  have hcolon := optionalColon_decimals (show seconds / 60 % 60 < 100 by omega)
      (Zone.secondsText seconds)
  have hminutes : twoDigits (asciiDigitIn 0 5) anyDigit
      (decimals 2 (seconds / 60 % 60) ++ Zone.secondsText seconds) =
        some (seconds / 60 % 60, Zone.secondsText seconds) := by
    rw [twoDigits_below (by omega), if_pos (by omega)]
  obtain ⟨colon, hread, hagree⟩ := head?_secondsReadings seconds
  obtain ⟨more, hread⟩ := List.head?_eq_some_iff.mp hread
  have hplus : CodePoint.ofChar '+' ≠ CodePoint.ofChar 'Z' := by decide
  have hminus : CodePoint.ofChar '-' ≠ CodePoint.ofChar 'Z' := by decide
  have hsigns : CodePoint.ofChar '+' ≠ CodePoint.ofChar '-' := by decide
  by_cases hsign : z.offset < 0
  all_goals
    simp [offsets, hsign, hplus, hminus, hsigns, hhours, hcolon, hminutes, hread, hagree,
      microsPerSecond_eq]
    omega

end Field

/-! ## 3. Pieces -/

namespace Piece

variable {r : Reading} {t rest : Text} {n : Nat}

theorem head?_field {f : Field} (hf : f ≠ .zone) (h : (f.numbers t).head? = some (n, rest)) :
    ((field f).readings r t).head? = some (f.record n r, rest) := by
  cases f with
  | zone => exact absurd rfl hf
  | _ => simp [readings, Field.readings, List.head?_map, h]

theorem head?_offset {offset : Option Int} (h : (Field.offsets t).head? = some (offset, rest)) :
    ((field .zone).readings r t).head? = some ({ r with offset := some offset }, rest) := by
  simp [readings, Field.readings, List.head?_map, h]

theorem head?_literal (c : CodePoint) :
    ((literal c).readings r (c :: rest)).head? = some (r, rest) := by
  simp [readings, CodePoint.sameLetter]

theorem head?_blanks (h : ∀ c ∈ rest.head?, c.isWhitespace = false) :
    (blanks.readings r (CodePoint.ofChar ' ' :: rest)).head? = some (r, rest) := by
  have hblank : (CodePoint.ofChar ' ').isWhitespace = true := by decide
  have hrest : rest.takeWhile CodePoint.isWhitespace = [] := by
    cases rest with
    | nil => rfl
    | cons c rest => exact List.takeWhile_cons_of_neg (by simp [h c rfl])
  simp [readings, hblank, hrest]

end Piece

end Moment

end IndexChain
