import IndexChain.Proofs.Entries.RoundTrip
import IndexChain.Proofs.Entries.Scanner

/-!
# Marks — what the scanner sees of a logical line

`splitLine` and `unescape` see a logical line as a list of code points, and each has to find out for
itself which of them are escaped. The scanner knows that from the natural lines already: what it
passes on is a list of marks (`marks`), one for each code point or for each pair of a backslash and
what is behind it.

**Every cut that `splitLine` and `replaceEscapes?` make goes between two marks.** That is so because
the texts that they cut have no backslash left over at their end (`Complete`), and it is why folds
over marks follow the recursions on code points: `Pairing.text?_foldl`, `Part.finish_foldl` and
`Item.parts_key` do so for one stage each, and `agrees_entryOfLine` puts them together.
-/

namespace IndexChain.Entries

/-! ## 1. Marks -/

/-- A text in which every backslash that is not escaped has something behind it. -/
inductive Complete : Text → Prop
  | nil : Complete []
  | point {c : CodePoint} {t : Text} : c ≠ '\\' → Complete t → Complete (c :: t)
  | pair (c : CodePoint) {t : Text} : Complete t → Complete ('\\' :: c :: t)

theorem endsOpen_pair (c : CodePoint) (t : Text) : endsOpen ('\\' :: c :: t) = endsOpen t := by
  simp [endsOpen]

theorem complete_of_endsOpen {t : Text} (h : endsOpen t = false) : Complete t := by
  fun_induction endsOpen t with
  | case1 => exact .nil
  | case2 c => exact .point (by simpa using h) .nil
  | case3 c rest ih => exact .pair c (ih h)
  | case4 c d rest hc ih => exact .point hc (ih h)

/-- What the scanner passes on of a logical line. -/
def marks : Text → List Mark
  | [] => []
  | [c] => if c = '\\' then [] else [.plain c]
  | c :: d :: rest => if c = '\\' then .escaped d :: marks rest else .plain c :: marks (d :: rest)

theorem marks_cons {c : CodePoint} (h : c ≠ '\\') (t : Text) :
    marks (c :: t) = .plain c :: marks t := by
  cases t with
  | nil => simp [marks, h]
  | cons d t => simp [marks, h]

theorem marks_pair (c : CodePoint) (t : Text) : marks ('\\' :: c :: t) = .escaped c :: marks t := by
  simp [marks]

namespace Complete

variable {t u : Text}

theorem marks_append (h : Complete t) (rest : Text) :
    marks (t ++ rest) = marks t ++ marks rest := by
  induction h with
  | nil => rfl
  | point hc _ ih => rw [List.cons_append, marks_cons hc, marks_cons hc, ih, List.cons_append]
  | pair c _ ih =>
    rw [List.cons_append, List.cons_append, marks_pair, marks_pair, ih, List.cons_append]

theorem endsOpen_append (h : Complete t) (rest : Text) : endsOpen (t ++ rest) = endsOpen rest := by
  induction h with
  | nil => rfl
  | point hc _ ih => rw [List.cons_append, endsOpen_cons hc, ih]
  | pair c _ ih => rw [List.cons_append, List.cons_append, endsOpen_pair, ih]

theorem endsOpen_eq_false (h : Complete t) : endsOpen t = false := by
  simpa [endsOpen] using h.endsOpen_append []

theorem append (h : Complete t) (hu : Complete u) : Complete (t ++ u) :=
  complete_of_endsOpen ((h.endsOpen_append u).trans hu.endsOpen_eq_false)

theorem of_append_right (h : Complete t) (hu : Complete (t ++ u)) : Complete u :=
  complete_of_endsOpen ((h.endsOpen_append u).symm.trans hu.endsOpen_eq_false)

theorem tail {c : CodePoint} (hc : c ≠ '\\') (h : Complete (c :: t)) : Complete t :=
  complete_of_endsOpen ((endsOpen_cons hc t).symm.trans h.endsOpen_eq_false)

theorem of_pair {c : CodePoint} (h : Complete ('\\' :: c :: t)) : Complete t :=
  complete_of_endsOpen ((endsOpen_pair c t).symm.trans h.endsOpen_eq_false)

theorem dropWhile_isBlank (h : Complete t) : Complete (t.dropWhile isBlank) := by
  induction t with
  | nil => exact h
  | cons c t ih =>
    by_cases hc : isBlank c = true
    · have hback : c ≠ '\\' := by
        rintro rfl
        cases hc
      rw [List.dropWhile_cons_of_pos hc]
      exact ih (h.tail hback)
    · rw [List.dropWhile_cons_of_neg hc]
      exact h

theorem marks_ne_nil (h : Complete t) (hne : t ≠ []) : marks t ≠ [] := by
  cases h with
  | nil => exact absurd rfl hne
  | point hc => simp [marks_cons hc]
  | pair c => simp [marks_pair]

end Complete

/-- A text that ends open is a complete one and a backslash, which leaves no mark. -/
theorem complete_dropLast {t : Text} (h : endsOpen t = true) :
    Complete t.dropLast ∧ marks t.dropLast = marks t := by
  fun_induction endsOpen t with
  | case1 => cases h
  | case2 c =>
    obtain rfl : c = CodePoint.ofChar '\\' := by simpa using h
    exact ⟨.nil, rfl⟩
  | case3 c rest ih =>
    obtain ⟨hcomplete, hmarks⟩ := ih h
    have hne : rest ≠ [] := by
      rintro rfl
      cases h
    rw [List.dropLast_cons_of_ne_nil (by simp), List.dropLast_cons_of_ne_nil hne,
      marks_pair, marks_pair, hmarks]
    exact ⟨.pair c hcomplete, rfl⟩
  | case4 c d rest hc ih =>
    obtain ⟨hcomplete, hmarks⟩ := ih h
    rw [List.dropLast_cons_of_ne_nil (by simp), marks_cons hc, marks_cons hc, hmarks]
    exact ⟨.point hc hcomplete, rfl⟩

/-! ## 2. Keys and values -/

/-- A half of a pair opens or closes it. -/
theorem isSurrogate_eq (c : CodePoint) :
    c.isSurrogate = (c.isHighSurrogate || c.isLowSurrogate) := by
  rw [Bool.eq_iff_iff, Bool.or_eq_true, CodePoint.isHighSurrogate_iff, CodePoint.isLowSurrogate_iff]
  simp only [CodePoint.isSurrogate, Bool.and_eq_true, decide_eq_true_eq]
  omega

namespace Pairing

/-- The text, if no half is left over. -/
def text? : Pairing → Option Text
  | whole text => some text
  | _ => none

theorem foldl_broken (units : Text) : units.foldl push broken = broken := by
  induction units with
  | nil => rfl
  | cons unit units ih => exact ih

/-- **The halves of pairs are put together as they come.** -/
theorem text?_foldl (units t : Text) :
    (units.foldl push (whole t)).text? = (Text.pairHalves? units).map (t ++ ·) := by
  fun_induction Text.pairHalves? units generalizing t with
  | case1 => simp [text?]
  | case2 c hc =>
    rw [isSurrogate_eq, Bool.or_eq_true] at hc
    rw [List.foldl_cons, push]
    split
    · rfl
    · next hhigh =>
      -- a half that opens no pair closes one, and there is none
      rw [if_pos (hc.resolve_left hhigh)]
      rfl
  | case3 c hc =>
    obtain ⟨hhigh, hlow⟩ :=
      Bool.or_eq_false_iff.mp ((isSurrogate_eq c).symm.trans (Bool.eq_false_iff.mpr hc))
    simp [push, hhigh, hlow, text?]
  | case4 c d rest hhigh hlow ih =>
    simp [push, hhigh, hlow, ih, Option.map_map, Function.comp_def]
  | case5 c d rest hhigh hlow =>
    simp [push, hhigh, hlow, foldl_broken, text?]
  | case6 c d rest hhigh hc =>
    have hlow : c.isLowSurrogate = true := by simpa [isSurrogate_eq, hhigh] using hc
    simp [push, hhigh, hlow, foldl_broken, text?]
  | case7 c d rest hhigh hc ih =>
    obtain ⟨-, hlow⟩ :=
      Bool.or_eq_false_iff.mp ((isSurrogate_eq c).symm.trans (Bool.eq_false_iff.mpr hc))
    rw [List.foldl_cons, push, if_neg hhigh, if_neg (by simp [hlow]), ih, Option.map_map]
    simp [Function.comp_def]

/-- To a code point that is no half it makes no difference whether it was escaped. -/
theorem point_eq_push {c : CodePoint} (h : c.isSurrogate = false) (pairing : Pairing) :
    pairing.point c = pairing.push c := by
  obtain ⟨hhigh, hlow⟩ := Bool.or_eq_false_iff.mp ((isSurrogate_eq c).symm.trans h)
  cases pairing <;> simp [point, push, hhigh, hlow]

end Pairing

namespace Part

/-- A key or value, when all of it was read. -/
def ofText (t : Text) : Part := (marks t).foldl push {}

theorem foldl_malformed {p : Part} (h : p.escape = .malformed) (ms : List Mark) :
    (ms.foldl push p).escape = .malformed := by
  induction ms generalizing p with
  | nil => exact h
  | cons m ms ih => exact ih (by simp [push, h])

theorem finish_of_malformed {p : Part} (h : p.escape = .malformed) :
    p.finish = .error .malformedEscape := by
  simp [finish, h]

section Digits

variable {pairing : Pairing} {count value digit : Nat} {c : CodePoint} {t : Text}

theorem ne_backslash_of_hexDigit? (h : c.hexDigit? = some digit) : c ≠ '\\' := by
  rintro rfl
  cases h

/-- A digit that is not the last one. -/
theorem foldl_digit (h : c.hexDigit? = some digit) (hcount : count ≠ 3) :
    (marks (c :: t)).foldl push ⟨pairing, .digits count value⟩ =
      (marks t).foldl push ⟨pairing, .digits (count + 1) (value * 16 + digit)⟩ := by
  rw [marks_cons (ne_backslash_of_hexDigit? h), List.foldl_cons]
  simp [push, h, hcount]

/-- The last digit. -/
theorem foldl_lastDigit (h : c.hexDigit? = some digit) :
    (marks (c :: t)).foldl push ⟨pairing, .digits 3 value⟩ =
      (marks t).foldl push ⟨pairing.push (.ofNat (value * 16 + digit)), .outside⟩ := by
  rw [marks_cons (ne_backslash_of_hexDigit? h), List.foldl_cons]
  simp [push, h, unit]

/-- Where no digit can lead to a unit, nothing can. -/
theorem finish_of_digits (hcomplete : Complete t)
    (h : ∀ c rest digit, t = c :: rest → c.hexDigit? = some digit → count ≠ 3 ∧
      (Complete rest →
        ((marks rest).foldl push ⟨pairing, .digits (count + 1) (value * 16 + digit)⟩).finish =
          .error .malformedEscape)) :
    ((marks t).foldl push ⟨pairing, .digits count value⟩).finish = .error .malformedEscape := by
  cases hcomplete with
  | nil => rfl
  | @point c t hc hcomplete =>
    cases hdigit : c.hexDigit? with
    | none =>
      apply finish_of_malformed
      rw [marks_cons hc, List.foldl_cons]
      exact foldl_malformed (by simp [push, hdigit]) _
    | some digit =>
      obtain ⟨hcount, hrest⟩ := h c t digit rfl hdigit
      rw [foldl_digit hdigit hcount]
      exact hrest hcomplete
  | pair c =>
    apply finish_of_malformed
    rw [marks_pair, List.foldl_cons]
    exact foldl_malformed rfl _

/-- A `u` without four digits behind it. -/
theorem finish_of_notUnit (hcomplete : Complete t)
    (h : ∀ h1 h2 h3 h4 rest, t = h1 :: h2 :: h3 :: h4 :: rest → unitOfHex? h1 h2 h3 h4 = none) :
    ((marks t).foldl push ⟨pairing, .digits 0 0⟩).finish = .error .malformedEscape := by
  -- digit by digit, up to the fourth, which is none
  refine finish_of_digits hcomplete fun h1 t1 _ ht1 hd1 => ⟨by decide, fun hcomplete => ?_⟩
  refine finish_of_digits hcomplete fun h2 t2 _ ht2 hd2 => ⟨by decide, fun hcomplete => ?_⟩
  refine finish_of_digits hcomplete fun h3 t3 _ ht3 hd3 => ⟨by decide, fun hcomplete => ?_⟩
  refine finish_of_digits hcomplete fun h4 t4 _ ht4 hd4 => ?_
  subst ht1 ht2 ht3 ht4
  have hnone := h h1 h2 h3 h4 t4 rfl
  simp [unitOfHex?, hd1, hd2, hd3, hd4] at hnone

end Digits

section Unit

variable {h1 h2 h3 h4 unit : CodePoint} {t : Text}

theorem digits_of_unitOfHex? (h : unitOfHex? h1 h2 h3 h4 = some unit) :
    ∃ i j k l, h1.hexDigit? = some i ∧ h2.hexDigit? = some j ∧ h3.hexDigit? = some k ∧
      h4.hexDigit? = some l ∧ unit = .ofNat (((i * 16 + j) * 16 + k) * 16 + l) := by
  unfold unitOfHex? at h
  split at h
  · next i j k l hd1 hd2 hd3 hd4 => exact ⟨i, j, k, l, hd1, hd2, hd3, hd4, (Option.some.inj h).symm⟩
  · cases h

theorem foldl_unit (h : unitOfHex? h1 h2 h3 h4 = some unit) (pairing : Pairing) :
    (marks (h1 :: h2 :: h3 :: h4 :: t)).foldl push ⟨pairing, .digits 0 0⟩ =
      (marks t).foldl push ⟨pairing.push unit, .outside⟩ := by
  obtain ⟨i, j, k, l, hd1, hd2, hd3, hd4, rfl⟩ := digits_of_unitOfHex? h
  rw [foldl_digit hd1 (by decide), foldl_digit hd2 (by decide), foldl_digit hd3 (by decide),
    foldl_lastDigit hd4, Nat.zero_mul, Nat.zero_add]

theorem complete_of_unit (h : unitOfHex? h1 h2 h3 h4 = some unit)
    (hcomplete : Complete (h1 :: h2 :: h3 :: h4 :: t)) : Complete t := by
  obtain ⟨i, j, k, l, hd1, hd2, hd3, hd4, -⟩ := digits_of_unitOfHex? h
  have h1 := hcomplete.tail (ne_backslash_of_hexDigit? hd1)
  have h2 := h1.tail (ne_backslash_of_hexDigit? hd2)
  have h3 := h2.tail (ne_backslash_of_hexDigit? hd3)
  exact h3.tail (ne_backslash_of_hexDigit? hd4)

end Unit

/-- What a backslash and a code point stand for is no half if the code point is none. -/
theorem isSurrogate_named {c : CodePoint} (h : c.isSurrogate = false) :
    (named c).isSurrogate = false := by
  unfold named
  split
  · rfl
  split
  · rfl
  split
  · rfl
  split
  · rfl
  · exact h

/-- **The scanner replaces the escapes that `replaceEscapes?` replaces**, and is at fault where that
finds none. -/
theorem finish_foldl {t : Text} (h : Complete t) (hwhole : t.IsWhole) (pairing : Pairing) :
    ((marks t).foldl push ⟨pairing, .outside⟩).finish =
      (replaceEscapes? t).elim (.error .malformedEscape) fun units =>
        finish ⟨units.foldl Pairing.push pairing, .outside⟩ := by
  fun_induction replaceEscapes? t generalizing pairing with
  | case1 => rfl
  | case2 c =>
    cases h with
    | point hc =>
      rw [marks_cons hc]
      exact congrArg (fun p => finish ⟨p, .outside⟩)
        (Pairing.point_eq_push (hwhole c (by simp)) pairing)
  | case3 h1 h2 h3 h4 rest unit hunit ih =>
    -- a `u` and four digits
    have hrest : Text.IsWhole rest := fun c hc => hwhole c (by simp [hc])
    rw [marks_pair, List.foldl_cons, Option.elim_map]
    exact (congrArg finish (foldl_unit hunit pairing)).trans
      (ih (complete_of_unit hunit h.of_pair) hrest _)
  | case4 h1 h2 h3 h4 rest hunit =>
    -- a `u` and something else, which is refused whatever follows
    rw [marks_pair, List.foldl_cons]
    refine finish_of_notUnit h.of_pair fun g1 g2 g3 g4 rest' heq => ?_
    cases heq
    exact hunit
  | case5 rest hshort =>
    rw [marks_pair, List.foldl_cons]
    exact finish_of_notUnit h.of_pair fun h1 h2 h3 h4 rest' heq =>
      absurd heq (hshort h1 h2 h3 h4 rest')
  | case6 d rest hd ih =>
    -- any other escape
    have hnamed : (named d).isSurrogate = false := isSurrogate_named (hwhole d (by simp))
    have hpush : push ⟨pairing, .outside⟩ (.escaped d) = ⟨pairing.push (named d), .outside⟩ := by
      simp [push, hd, point, Pairing.point_eq_push hnamed]
    rw [marks_pair, List.foldl_cons, Option.elim_map, hpush]
    exact ih h.of_pair hwhole.tail.tail _
  | case7 c d rest hc ih =>
    have hpush : push ⟨pairing, .outside⟩ (.plain c) = ⟨pairing.push c, .outside⟩ :=
      congrArg (Part.mk · .outside) (Pairing.point_eq_push (hwhole c (by simp)) pairing)
    rw [marks_cons hc, List.foldl_cons, Option.elim_map, hpush]
    exact ih (h.tail hc) hwhole.tail _

theorem finish_outside (pairing : Pairing) :
    finish ⟨pairing, .outside⟩ = pairing.text?.elim (.error .unpairedSurrogate) .ok := by
  cases pairing <;> rfl

theorem finish_ofText {t : Text} (h : Complete t) (hwhole : t.IsWhole) :
    (ofText t).finish = (replaceEscapes? t).elim (.error .malformedEscape) fun units =>
      (Text.pairHalves? units).elim (.error .unpairedSurrogate) .ok := by
  refine (finish_foldl h hwhole _).trans ?_
  simp only [finish_outside, Pairing.text?_foldl, List.nil_append, Option.map_id']

/-- **A text without a backslash stands for itself**, halves and all. -/
theorem finish_ofText_of_not_mem {t : Text} (h : CodePoint.ofChar '\\' ∉ t) :
    (ofText t).finish = .ok t := by
  have hfoldl (u : Text) : (marks t).foldl push ⟨.whole u, .outside⟩ =
      ⟨.whole (u ++ t), .outside⟩ := by
    induction t generalizing u with
    | nil =>
      rw [List.append_nil]
      rfl
    | cons c t ih =>
      obtain ⟨hc, ht⟩ := List.ne_and_not_mem_of_not_mem_cons h
      rw [marks_cons hc.symm, List.foldl_cons, List.append_cons u c t]
      exact ih ht (u ++ [c])
  rw [ofText, show ({} : Part) = ⟨.whole [], .outside⟩ from rfl, hfoldl]
  rfl

end Part

/-! ## 3. Readings that agree -/

/-- A reading and one by the scanner come to the same: the same result, or the same reason to refuse
the text. -/
inductive Agrees {α : Type} : Except Corruption α → Except Flaw α → Prop
  | ok (a : α) : Agrees (.ok a) (.ok a)
  | malformedEscape (t : Text) : Agrees (.error (.malformedEscape t)) (.error .malformedEscape)
  | unpairedSurrogate (t : Text) :
      Agrees (.error (.unpairedSurrogate t)) (.error .unpairedSurrogate)

theorem Agrees.bind {α β : Type} {a : Except Corruption α} {b : Except Flaw α} (h : Agrees a b)
    {f : α → Except Corruption β} {g : α → Except Flaw β} (hfg : ∀ x, Agrees (f x) (g x)) :
    Agrees (a >>= f) (b >>= g) := by
  cases h with
  | ok a => exact hfg a
  | malformedEscape t => exact .malformedEscape t
  | unpairedSurrogate t => exact .unpairedSurrogate t

theorem Agrees.map {α β : Type} {a : Except Corruption α} {b : Except Flaw α} (h : Agrees a b)
    (f : α → β) : Agrees (a.map f) (b.map f) := by
  cases h with
  | ok a => exact .ok (f a)
  | malformedEscape t => exact .malformedEscape t
  | unpairedSurrogate t => exact .unpairedSurrogate t

/-- **The scanner decodes what `unescape` decodes**, if no half of a pair stands there unescaped
beside an escape. -/
theorem agrees_unescape {t : Text} (hcomplete : Complete t)
    (hwhole : CodePoint.ofChar '\\' ∈ t → t.IsWhole) :
    Agrees (unescape t) (Part.ofText t).finish := by
  unfold unescape
  split
  · next hback =>
    rw [Part.finish_ofText_of_not_mem (by simpa using hback)]
    exact .ok t
  · next hback =>
    rw [Part.finish_ofText hcomplete (hwhole (by simpa using hback))]
    cases replaceEscapes? t with
    | none => exact .malformedEscape t
    | some units =>
      rw [Option.elim_some]
      cases hpairs : Text.pairHalves? units with
      | none => simpa only [hpairs] using .unpairedSurrogate t
      | some u => simpa only [hpairs] using .ok u

/-! ## 4. Logical lines -/

section Separator

variable {c : CodePoint} {t : Text}

theorem cutKey_blank (hback : c ≠ '\\') (h : isBlank c = true) :
    cutKey (c :: t) = ([], c :: t) := by
  cases t with
  | nil => simp [cutKey, hback, h]
  | cons d t => simp [cutKey, hback, h]

theorem dropSeparator_blank (h : isBlank c = true) (t : Text) :
    dropSeparator (c :: t) = dropSeparator t := by
  rw [dropSeparator, List.dropWhile_cons_of_pos h, dropSeparator]

theorem dropSeparator_separator (h : isSeparator c = true) (t : Text) :
    dropSeparator (c :: t) = t.dropWhile isBlank := by
  have hblank : ¬ isBlank c = true := by
    simp only [isSeparator, Bool.or_eq_true, decide_eq_true_eq] at h
    rcases h with rfl | rfl <;> decide
  rw [dropSeparator, List.dropWhile_cons_of_neg hblank]
  exact if_pos h

theorem dropSeparator_cons (hblank : ¬ isBlank c = true)
    (hsep : ¬ isSeparator c = true) (t : Text) : dropSeparator (c :: t) = c :: t := by
  rw [dropSeparator, List.dropWhile_cons_of_neg hblank]
  exact if_neg hsep

/-- No cut of a line parts a backslash from what it escapes. -/
theorem complete_splitLine (h : Complete t) :
    Complete (splitLine t).1 ∧ Complete (splitLine t).2 := by
  have hkey : Complete (cutKey t).1 := by
    induction h with
    | nil => exact .nil
    | @point c t hc _ ih =>
      by_cases hsep : isSeparator c = true
      · rw [cutKey_separator hc hsep]
        exact .nil
      by_cases hblank : isBlank c = true
      · rw [cutKey_blank hc hblank]
        exact .nil
      · rw [cutKey_cons hc (by simpa using hsep) (by simpa using hblank)]
        exact .point hc ih
    | pair c _ ih => exact .pair c ih
  -- the key and what is after it make up the line
  have hafter : Complete (cutKey t).2 := hkey.of_append_right ((cutKey_append_eq t).symm ▸ h)
  refine ⟨hkey, ?_⟩
  have hdrop := hafter.dropWhile_isBlank
  show Complete (dropSeparator (cutKey t).2)
  unfold dropSeparator
  split
  · exact .nil
  · next c rest heq =>
    rw [heq] at hdrop
    split
    · next hsep =>
      have hc : c ≠ '\\' := by
        rintro rfl
        cases hsep
      exact (hdrop.tail hc).dropWhile_isBlank
    · exact hdrop

end Separator

namespace Item

/-- A logical line, when all of it was read. -/
def ofText (line : Text) : Item := (marks line).foldl push {}

/-- What counts of a line in the end. -/
def parts (item : Item) : Part × Part := (item.key, item.value)

theorem finish_of_parts {item : Item} {key value : Part} (h : item.parts = (key, value)) :
    item.finish = do
      let v ← value.finish
      let k ← key.finish
      return (k, v) := by
  cases h
  rfl

variable {key value : Part} {t : Text}

/-- From the first mark of the value on, every mark belongs to it. -/
theorem parts_pushValue (item : Item) (m : Mark) (ms : List Mark) :
    (ms.foldl push (item.pushValue m)).parts =
      (item.key, (m :: ms).foldl Part.push item.value) := by
  have hvalue (value : Part) :
      (ms.foldl push ⟨.value, item.key, value⟩).parts = (item.key, ms.foldl Part.push value) := by
    induction ms generalizing value with
    | nil => rfl
    | cons m ms ih => exact ih _
  exact hvalue _

/-- After the separator blanks are skipped. -/
theorem parts_margin (h : Complete t) :
    ((marks t).foldl push ⟨.margin, key, {}⟩).parts = (key, .ofText (t.dropWhile isBlank)) := by
  induction h with
  | nil => rfl
  | @point c t hc _ ih =>
    by_cases hblank : isBlank c = true
    · have hpush : push ⟨.margin, key, {}⟩ (.plain c) = ⟨.margin, key, {}⟩ := by simp [push, hblank]
      rw [marks_cons hc, List.foldl_cons, hpush, ih, List.dropWhile_cons_of_pos hblank]
    · have hpush : push ⟨.margin, key, {}⟩ (.plain c) = pushValue ⟨.margin, key, {}⟩
          (.plain c) := by
        simp [push, hblank]
      rw [List.dropWhile_cons_of_neg hblank, marks_cons hc, List.foldl_cons, hpush, parts_pushValue,
        ← marks_cons hc]
      rfl
  | @pair c t =>
    rw [List.dropWhile_cons_of_neg (by decide), marks_pair, List.foldl_cons]
    exact (parts_pushValue ⟨.margin, key, {}⟩ _ _).trans (by rw [← marks_pair]; rfl)

/-- After the key blanks are skipped too, and the separator ends the gap. -/
theorem parts_gap (h : Complete t) :
    ((marks t).foldl push ⟨.gap, key, {}⟩).parts = (key, .ofText (dropSeparator t)) := by
  induction h with
  | nil => rfl
  | @point c t hc hcomplete ih =>
    rw [marks_cons hc, List.foldl_cons]
    by_cases hblank : isBlank c = true
    · have hpush : push ⟨.gap, key, {}⟩ (.plain c) = ⟨.gap, key, {}⟩ := by simp [push, hblank]
      rw [hpush, ih, dropSeparator_blank hblank]
    by_cases hsep : isSeparator c = true
    · have hpush : push ⟨.gap, key, {}⟩ (.plain c) = ⟨.margin, key, {}⟩ := by
        simp [push, hblank, hsep]
      rw [hpush, parts_margin hcomplete, dropSeparator_separator hsep]
    · have hpush : push ⟨.gap, key, {}⟩ (.plain c) = pushValue ⟨.gap, key, {}⟩ (.plain c) := by
        simp [push, hblank, hsep]
      rw [hpush, parts_pushValue, ← marks_cons hc, dropSeparator_cons hblank hsep]
      rfl
  | @pair c t =>
    rw [marks_pair, List.foldl_cons, dropSeparator_cons (by decide) (by decide)]
    exact (parts_pushValue ⟨.gap, key, {}⟩ _ _).trans (by rw [← marks_pair]; rfl)

/-- **The scanner tells the key from the value as `splitLine` does.** -/
theorem parts_key (h : Complete t) :
    ((marks t).foldl push ⟨.key, key, {}⟩).parts =
      ((marks (splitLine t).1).foldl Part.push key, .ofText (splitLine t).2) := by
  induction h generalizing key with
  | nil => rfl
  | @point c t hc hcomplete ih =>
    rw [marks_cons hc, List.foldl_cons]
    by_cases hsep : isSeparator c = true
    · have hpush : push ⟨.key, key, {}⟩ (.plain c) = ⟨.margin, key, {}⟩ := by simp [push, hsep]
      rw [hpush, parts_margin hcomplete, splitLine, cutKey_separator hc hsep]
      exact congrArg (Prod.mk key ∘ Part.ofText) (dropSeparator_separator hsep t).symm
    by_cases hblank : isBlank c = true
    · have hpush : push ⟨.key, key, {}⟩ (.plain c) = ⟨.gap, key, {}⟩ := by simp [push, hblank, hsep]
      rw [hpush, parts_gap hcomplete, splitLine, cutKey_blank hc hblank]
      exact congrArg (Prod.mk key ∘ Part.ofText) (dropSeparator_blank hblank t).symm
    · have hpush : push ⟨.key, key, {}⟩ (.plain c) = ⟨.key, key.push (.plain c), {}⟩ := by
        simp [push, hblank, hsep]
      rw [hpush, ih, splitLine, splitLine, cutKey_cons hc (by simpa using hsep)
        (by simpa using hblank)]
      exact congrArg (Prod.mk · _) (by rw [marks_cons hc]; rfl)
  | @pair c t _ ih =>
    rw [marks_pair, List.foldl_cons]
    exact ih.trans (by simp only [splitLine, cutKey]; rfl)

theorem parts_ofText (h : Complete t) :
    (ofText t).parts = (.ofText (splitLine t).1, .ofText (splitLine t).2) :=
  parts_key h

end Item

/-- No half of a surrogate pair stands unescaped in a key or a value that has a backslash. -/
def Unmixed (line : Text) : Prop :=
  ∀ part ∈ [(splitLine line).1, (splitLine line).2], CodePoint.ofChar '\\' ∈ part → part.IsWhole

instance (line : Text) : Decidable (Unmixed line) :=
  inferInstanceAs (Decidable (∀ part ∈ [(splitLine line).1, (splitLine line).2],
    CodePoint.ofChar '\\' ∈ part → part.IsWhole))

/-- **The scanner finds the entry on a logical line.** -/
theorem agrees_entryOfLine {line : Text} (hcomplete : Complete line) (hunmixed : Unmixed line) :
    Agrees (entryOfLine line) (Item.ofText line).finish := by
  obtain ⟨hkey, hvalue⟩ := complete_splitLine hcomplete
  rw [Item.finish_of_parts (Item.parts_ofText hcomplete), entryOfLine]
  refine (agrees_unescape hvalue (hunmixed _ (by simp))).bind fun v => ?_
  refine (agrees_unescape hkey (hunmixed _ (by simp))).bind fun k => ?_
  exact .ok (k, v)

end IndexChain.Entries
