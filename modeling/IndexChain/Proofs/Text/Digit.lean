import IndexChain.Proofs.Text
import IndexChain.Text.Digit

/-!
# Digits — numbers of a fixed width

A number that fits into a width is written with exactly so many digits, zeros in front
(`padded_eq_decimals`). The digits are listed by `decimals`, the last one last, so that a text of a
known width falls apart into code points whose values are known.
-/

namespace IndexChain

namespace CodePoint

/-- The ASCII digit of a value. -/
def decimal (d : Nat) : CodePoint := .ofChar (Nat.digitChar d)

variable {d : Nat}

theorem val_decimal (h : d < 10) : (decimal d).val = 48 + d := Nat.toNat_digitChar_of_lt_ten h

theorem asciiDigit?_decimal (h : d < 10) : (decimal d).asciiDigit? = some d := by
  simp [asciiDigit?, val_decimal h]
  omega

/-- The digits of ASCII are the first of the digits of all scripts. -/
theorem digit?_decimal (h : d < 10) : (decimal d).digit? = some d := by
  have hrange : (48 ≤ 48 + d && 48 + d < 48 + 10) = true := by
    simp only [Bool.and_eq_true, decide_eq_true_eq]
    omega
  rw [digit?, zeroDigits, List.findSome?_cons, val_decimal h]
  simp only [hrange, if_true, Nat.add_sub_cancel_left]

theorem digit?_of_asciiDigit? {c : CodePoint} (h : c.asciiDigit? = some d) : c.digit? = some d := by
  unfold asciiDigit? at h
  split at h
  · next hrange =>
    simp only [Bool.and_eq_true, decide_eq_true_eq] at hrange
    have hd : c.val - 0x30 = d := Option.some.inj h
    have hlt : d < 10 := by omega
    have hc : c = decimal d := by
      apply CodePoint.ext
      rw [val_decimal hlt]
      omega
    rw [hc, digit?_decimal hlt]
  · cases h

theorem isWhitespace_decimal (h : d < 10) : (decimal d).isWhitespace = false := by
  simp [isWhitespace, val_decimal h]
  omega

end CodePoint

namespace Text

/-- The last digits of a number, as many as the width says. -/
def decimals : Nat → Nat → Text
  | 0, _ => []
  | width + 1, n => decimals width (n / 10) ++ [CodePoint.decimal (n % 10)]

theorem decimals_zero (width : Nat) :
    decimals width 0 = List.replicate width (CodePoint.ofChar '0') := by
  induction width with
  | zero => rfl
  | succ width ih => rw [decimals, Nat.zero_div, ih, List.replicate_succ']; rfl

theorem ofNat_of_lt {n : Nat} (h : n < 10) : ofNat n = [CodePoint.decimal n] := by
  rw [ofNat, Nat.toDigits_of_lt_base h]
  rfl

theorem ofNat_of_le {n : Nat} (h : 10 ≤ n) :
    ofNat n = ofNat (n / 10) ++ [CodePoint.decimal (n % 10)] := by
  rw [ofNat, Nat.toDigits_of_base_le (by decide) h, List.map_append]
  rfl

theorem padded_of_le {width n : Nat} (h : 10 ≤ n) :
    padded (width + 1) n = padded width (n / 10) ++ [CodePoint.decimal (n % 10)] := by
  simp [padded, ofNat_of_le h]

/-- A number that fits into a width is written with so many digits. -/
theorem padded_eq_decimals {width n : Nat} (h : n < 10 ^ (width + 1)) :
    padded (width + 1) n = decimals (width + 1) n := by
  induction width generalizing n with
  | zero => simp_all [padded, ofNat_of_lt, decimals, Nat.mod_eq_of_lt]
  | succ width ih =>
    rcases Nat.lt_or_ge n 10 with hn | hn
    · rw [decimals, Nat.div_eq_of_lt hn, decimals_zero, Nat.mod_eq_of_lt hn]
      simp [padded, ofNat_of_lt hn]
    · rw [Nat.pow_succ] at h
      rw [padded_of_le hn, ih (Nat.div_lt_of_lt_mul (Nat.mul_comm _ 10 ▸ h))]
      rfl

theorem le_length_ofNat {width n : Nat} (h : 10 ^ width ≤ n) : width + 1 ≤ (ofNat n).length := by
  rw [ofNat, List.length_map]
  rcases width with _ | width
  · exact Nat.length_toDigits_pos
  · by_contra hlt
    have hle : (Nat.toDigits 10 n).length ≤ width + 1 := by omega
    have hlow := (Nat.length_toDigits_le_iff (by decide) (Nat.succ_pos width)).mp hle
    omega

/-- Where the first digit is not zero nothing is padded. -/
theorem ofNat_eq_decimals {width n : Nat} (hle : 10 ^ width ≤ n) (hlt : n < 10 ^ (width + 1)) :
    ofNat n = decimals (width + 1) n := by
  have hlength := le_length_ofNat hle
  rw [← padded_eq_decimals hlt, padded, Nat.sub_eq_zero_of_le hlength]
  rfl

theorem exists_decimal_of_mem {width n : Nat} {c : CodePoint} (h : c ∈ decimals width n) :
    ∃ d, d < 10 ∧ c = CodePoint.decimal d := by
  induction width generalizing n with
  | zero => cases h
  | succ width ih =>
    rcases List.mem_append.mp h with h | h
    · exact ih h
    · exact ⟨n % 10, Nat.mod_lt n (by decide), List.mem_singleton.mp h⟩

end Text

end IndexChain
