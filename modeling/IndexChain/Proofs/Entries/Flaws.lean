import IndexChain.Proofs.Entries.Marks

/-!
# Flaws — exactly which texts are refused

Reading a text fails for one of two things in a key or a value: a `\u` that four hexadecimal digits
do not follow (`HasBrokenEscape`), and half of a surrogate pair without the other half among the
units that the escapes stand for (`HasLoneHalf`). Both are said here of the text, without reading
it:

* a backslash begins an escape if what is before it is `Complete`, which is a matter of how many
  backslashes stand there (`complete_iff_even`);
* the units are those of a relation with one clause for each kind of escape (`Decodes`), not those
  of the function that replaces them.

**`unescape_eq_error_iff` says that nothing else is refused, and nothing of that kind is let pass**,
and for which reason. `readLines_eq_error_iff` carries that to a text of entries: the first line at
fault is reported, and on a line the value before the key.

A text of bytes has no halves of pairs to begin with, which is what makes the short cut of
`unescape` for texts without a backslash harmless.
-/

namespace IndexChain

namespace Text

/-! ## 1. Halves that are left over -/

/-- A half of a surrogate pair stands without the other: one that opens a pair and is followed by
none that closes it, or one that closes a pair and follows none that opens it. -/
def HasLoneHalf (units : Text) : Prop :=
  ∃ before c after, units = before ++ c :: after ∧
    (c.isHighSurrogate = true ∧ after.head?.any CodePoint.isLowSurrogate = false ∨
      c.isLowSurrogate = true ∧ before.getLast?.any CodePoint.isHighSurrogate = false)

theorem not_isHighSurrogate_of_isLowSurrogate {c : CodePoint} (h : c.isLowSurrogate = true) :
    c.isHighSurrogate = false := by
  rw [Bool.eq_false_iff, ne_eq, CodePoint.isHighSurrogate_iff]
  rw [CodePoint.isLowSurrogate_iff] at h
  omega

theorem hasLoneHalf_high {c : CodePoint} {t : Text} (hc : c.isHighSurrogate = true)
    (ht : t.head?.any CodePoint.isLowSurrogate = false) : HasLoneHalf (c :: t) :=
  ⟨[], c, t, rfl, .inl ⟨hc, ht⟩⟩

theorem hasLoneHalf_low {c : CodePoint} (hc : c.isLowSurrogate = true) (t : Text) :
    HasLoneHalf (c :: t) :=
  ⟨[], c, t, rfl, .inr ⟨hc, rfl⟩⟩

/-- What does not end in a half that opens a pair has no part in what follows. -/
theorem HasLoneHalf.append {t : Text} (h : HasLoneHalf t) (start : Text)
    (hstart : start.getLast?.any CodePoint.isHighSurrogate = false) : HasLoneHalf (start ++ t) := by
  obtain ⟨before, c, after, rfl, hhigh | ⟨hlow, hbefore⟩⟩ := h
  · exact ⟨start ++ before, c, after, (List.append_assoc ..).symm, .inl hhigh⟩
  · refine ⟨start ++ before, c, after, (List.append_assoc ..).symm, .inr ⟨hlow, ?_⟩⟩
    cases hlast : before.getLast? with
    | none => simpa [List.getLast?_append, hlast] using hstart
    | some d => simpa [List.getLast?_append, hlast] using hbefore

/-- A code point that is no half does not count. -/
theorem hasLoneHalf_cons {c : CodePoint} (hc : c.isSurrogate = false) (t : Text) :
    HasLoneHalf (c :: t) ↔ HasLoneHalf t := by
  obtain ⟨hhigh, hlow⟩ := Bool.or_eq_false_iff.mp ((Entries.isSurrogate_eq c).symm.trans hc)
  constructor
  · rintro ⟨before, d, after, heq, hlone⟩
    rcases List.cons_eq_append_iff.mp heq with ⟨rfl, hd⟩ | ⟨before, rfl, rfl⟩
    · cases hd
      simp [hhigh, hlow] at hlone
    · refine ⟨before, d, after, rfl, hlone.imp_right fun h => ⟨h.1, ?_⟩⟩
      cases before with
      | nil => rfl
      | cons e before => exact h.2
  · exact fun h => h.append [c] hhigh

/-- Two halves that belong together do not count. -/
theorem hasLoneHalf_pair {c d : CodePoint} (hc : c.isHighSurrogate = true)
    (hd : d.isLowSurrogate = true) (t : Text) : HasLoneHalf (c :: d :: t) ↔ HasLoneHalf t := by
  have hd' := not_isHighSurrogate_of_isLowSurrogate hd
  constructor
  · rintro ⟨before, e, after, heq, hlone⟩
    rcases List.cons_eq_append_iff.mp heq with ⟨rfl, he⟩ | ⟨before, rfl, htail⟩
    · -- the half that opens the pair is followed by the one that closes it
      cases he
      have hlow : c.isLowSurrogate = false :=
        Bool.eq_false_iff.mpr fun h => by simp [not_isHighSurrogate_of_isLowSurrogate h] at hc
      simp [hd, hlow] at hlone
    rcases List.cons_eq_append_iff.mp htail with ⟨rfl, he⟩ | ⟨before, rfl, rfl⟩
    · -- the half that closes it follows the one that opens it
      cases he
      simp [hc, hd'] at hlone
    · refine ⟨before, e, after, rfl, hlone.imp_right fun h => ⟨h.1, ?_⟩⟩
      cases before with
      | nil => rfl
      | cons f before => exact h.2
  · exact fun h => h.append [c, d] hd'

/-- **Halves can be put together exactly if none stands alone.** -/
theorem pairHalves?_eq_none_iff (units : Text) : pairHalves? units = none ↔ HasLoneHalf units := by
  have hlow {c : CodePoint} (hc : c.isSurrogate = true) (hhigh : ¬ c.isHighSurrogate = true) :
      c.isLowSurrogate = true :=
    (Bool.or_eq_true _ _ ▸ Entries.isSurrogate_eq c ▸ hc).resolve_left hhigh
  have hnil : ¬ HasLoneHalf [] := by
    rintro ⟨before, c, after, heq, -⟩
    exact List.append_ne_nil_of_right_ne_nil before (List.cons_ne_nil c after) heq.symm
  fun_induction pairHalves? units with
  | case1 => simpa using hnil
  | case2 c hc =>
    refine iff_of_true rfl ?_
    by_cases hhigh : c.isHighSurrogate = true
    · exact hasLoneHalf_high hhigh rfl
    · exact hasLoneHalf_low (hlow hc hhigh) []
  | case3 c hc => simpa [hasLoneHalf_cons (Bool.eq_false_iff.mpr hc)] using hnil
  | case4 c d rest hc hd ih =>
    exact Option.map_eq_none_iff.trans (ih.trans (hasLoneHalf_pair hc hd rest).symm)
  | case5 c d rest hc hd => exact iff_of_true rfl (hasLoneHalf_high hc (by simpa using hd))
  | case6 c d rest hhigh hc => exact iff_of_true rfl (hasLoneHalf_low (hlow hc hhigh) (d :: rest))
  | case7 c d rest hhigh hc ih =>
    exact Option.map_eq_none_iff.trans
      (ih.trans (hasLoneHalf_cons (Bool.eq_false_iff.mpr hc) (d :: rest)).symm)

end Text

namespace Entries

/-! ## 2. Escapes that are broken -/

/-- A text leaves no backslash over exactly if those at its end are even in number. -/
theorem complete_iff_even {t : Text} : Complete t ↔ trailingBackslashes t % 2 = 0 := by
  have hopen : endsOpen t = (trailingBackslashes t % 2 == 1) := (isContinued_eq_endsOpen t).symm
  constructor
  · intro h
    have hodd := hopen.symm.trans h.endsOpen_eq_false
    simp only [beq_eq_false_iff_ne, ne_eq] at hodd
    omega
  · intro h
    exact complete_of_endsOpen (hopen.trans (by simp [h]))

/-- Four hexadecimal digits stand at the beginning. -/
def BeginsWithUnit (t : Text) : Prop := 4 ≤ t.length ∧ ∀ c ∈ t.take 4, c.hexDigit?.isSome

/-- A backslash that is not escaped itself is followed by a `u`, and that not by four digits. -/
def HasBrokenEscape (t : Text) : Prop :=
  ∃ before after, t = before ++ CodePoint.ofChar '\\' :: CodePoint.ofChar 'u' :: after ∧
  Complete before ∧
    ¬ BeginsWithUnit after

theorem isSome_unitOfHex?_iff {h1 h2 h3 h4 : CodePoint} {t : Text} :
    (unitOfHex? h1 h2 h3 h4).isSome ↔ BeginsWithUnit (h1 :: h2 :: h3 :: h4 :: t) := by
  unfold unitOfHex?
  cases hd1 : h1.hexDigit? <;> cases hd2 : h2.hexDigit? <;> cases hd3 : h3.hexDigit? <;>
    cases hd4 : h4.hexDigit? <;> simp [BeginsWithUnit, hd1, hd2, hd3, hd4]

theorem exists_of_beginsWithUnit {t : Text} (h : BeginsWithUnit t) :
    ∃ h1 h2 h3 h4 rest, t = h1 :: h2 :: h3 :: h4 :: rest := by
  match t, h.1 with
  | h1 :: h2 :: h3 :: h4 :: rest, _ => exact ⟨h1, h2, h3, h4, rest, rfl⟩

theorem hasBrokenEscape_cons {c : CodePoint} (hc : c ≠ '\\') (t : Text) :
    HasBrokenEscape (c :: t) ↔ HasBrokenEscape t := by
  constructor
  · rintro ⟨before, after, heq, hcomplete, hunit⟩
    rcases List.cons_eq_append_iff.mp heq with ⟨rfl, hcons⟩ | ⟨before, rfl, rfl⟩
    · cases hcons
      exact absurd rfl hc
    · exact ⟨before, after, rfl, hcomplete.tail hc, hunit⟩
  · rintro ⟨before, after, rfl, hcomplete, hunit⟩
    exact ⟨c :: before, after, rfl, .point hc hcomplete, hunit⟩

theorem hasBrokenEscape_pair (c : CodePoint) (t : Text) :
    HasBrokenEscape ('\\' :: c :: t) ↔ (c = 'u' ∧ ¬ BeginsWithUnit t) ∨ HasBrokenEscape t := by
  constructor
  · rintro ⟨before, after, heq, hcomplete, hunit⟩
    cases hcomplete with
    | nil =>
      cases heq
      exact .inl ⟨rfl, hunit⟩
    | point hc => exact absurd (List.cons.inj heq).1.symm hc
    | pair d hcomplete =>
      exact .inr ⟨_, after, (List.cons.inj (List.cons.inj heq).2).2, hcomplete, hunit⟩
  · rintro (⟨rfl, hunit⟩ | ⟨before, after, rfl, hcomplete, hunit⟩)
    · exact ⟨[], t, rfl, .nil, hunit⟩
    · exact ⟨'\\' :: c :: before, after, rfl, .pair c hcomplete, hunit⟩

/-- The digits of a unit hide no escape. -/
theorem hasBrokenEscape_digits {h1 h2 h3 h4 : CodePoint} {t : Text}
    (h : (unitOfHex? h1 h2 h3 h4).isSome) :
    HasBrokenEscape (h1 :: h2 :: h3 :: h4 :: t) ↔ HasBrokenEscape t := by
  obtain ⟨unit, hunit⟩ := Option.isSome_iff_exists.mp h
  obtain ⟨i, j, k, l, hd1, hd2, hd3, hd4, -⟩ := Part.digits_of_unitOfHex? hunit
  rw [hasBrokenEscape_cons (Part.ne_backslash_of_hexDigit? hd1),
    hasBrokenEscape_cons (Part.ne_backslash_of_hexDigit? hd2),
    hasBrokenEscape_cons (Part.ne_backslash_of_hexDigit? hd3),
    hasBrokenEscape_cons (Part.ne_backslash_of_hexDigit? hd4)]

/-- **Escapes can be replaced exactly if none is broken.** -/
theorem replaceEscapes?_eq_none_iff (t : Text) : replaceEscapes? t = none ↔ HasBrokenEscape t := by
  fun_induction replaceEscapes? t with
  | case1 => simp [HasBrokenEscape]
  | case2 c =>
    -- there is no room for a `u` behind a backslash
    refine iff_of_false (by simp) ?_
    rintro ⟨before, after, heq, -⟩
    have hlength := congrArg List.length heq
    simp only [List.length_cons, List.length_nil, List.length_append] at hlength
    omega
  | case3 h1 h2 h3 h4 rest unit hunit ih =>
    have hsome : (unitOfHex? h1 h2 h3 h4).isSome := by simp [hunit]
    rw [Option.map_eq_none_iff, ih, hasBrokenEscape_pair, hasBrokenEscape_digits hsome]
    simp [isSome_unitOfHex?_iff.mp hsome]
  | case4 h1 h2 h3 h4 rest hunit =>
    refine iff_of_true rfl ((hasBrokenEscape_pair _ _).mpr (.inl ⟨rfl, fun h => ?_⟩))
    simpa [hunit] using isSome_unitOfHex?_iff.mpr h
  | case5 rest hshort =>
    refine iff_of_true rfl ((hasBrokenEscape_pair _ _).mpr (.inl ⟨rfl, fun h => ?_⟩))
    obtain ⟨h1, h2, h3, h4, rest', rfl⟩ := exists_of_beginsWithUnit h
    exact hshort h1 h2 h3 h4 rest' rfl
  | case6 d rest hd ih =>
    rw [Option.map_eq_none_iff, ih, hasBrokenEscape_pair]
    simp [hd]
  | case7 c d rest hc ih => rw [Option.map_eq_none_iff, ih, hasBrokenEscape_cons hc]

/-! ## 3. What the escapes stand for -/

/-- A text and the units it stands for, escape by escape. -/
inductive Decodes : Text → Text → Prop
  | nil : Decodes [] []
  /-- A code point that is no backslash stands for itself. -/
  | point {c : CodePoint} {t units : Text} : c ≠ '\\' → Decodes t units →
    Decodes (c :: t) (c :: units)
  /-- Four digits are the number of a unit. -/
  | unit {h1 h2 h3 h4 : CodePoint} {i j k l : Nat} {t units : Text} :
      h1.hexDigit? = some i → h2.hexDigit? = some j → h3.hexDigit? = some k →
      h4.hexDigit? = some l →
      Decodes t units →
      Decodes ('\\' :: 'u' :: h1 :: h2 :: h3 :: h4 :: t)
        (.ofNat (((i * 16 + j) * 16 + k) * 16 + l) :: units)
  /-- Any other code point behind a backslash has its own meaning. -/
  | named {c : CodePoint} {t units : Text} :
      c ≠ 'u' → Decodes t units → Decodes ('\\' :: c :: t) (named c :: units)
  /-- A backslash with nothing behind it stands for itself. -/
  | last : Decodes ['\\'] ['\\']

theorem decodes_of_replaceEscapes? {t units : Text} (h : replaceEscapes? t = some units) :
    Decodes t units := by
  fun_induction replaceEscapes? t generalizing units with
  | case1 =>
    cases h
    exact .nil
  | case2 c =>
    cases h
    by_cases hc : c = CodePoint.ofChar '\\'
    · exact hc ▸ .last
    · exact .point hc .nil
  | case3 h1 h2 h3 h4 rest unit hunit ih =>
    obtain ⟨units, hunits, rfl⟩ := Option.map_eq_some_iff.mp h
    obtain ⟨i, j, k, l, hd1, hd2, hd3, hd4, rfl⟩ := Part.digits_of_unitOfHex? hunit
    exact .unit hd1 hd2 hd3 hd4 (ih hunits)
  | case4 => cases h
  | case5 => cases h
  | case6 d rest hd ih =>
    obtain ⟨units, hunits, rfl⟩ := Option.map_eq_some_iff.mp h
    exact .named hd (ih hunits)
  | case7 c d rest hc ih =>
    obtain ⟨units, hunits, rfl⟩ := Option.map_eq_some_iff.mp h
    exact .point hc (ih hunits)

/-- **Replacing the escapes yields the units that the text stands for.** -/
theorem replaceEscapes?_eq_some_iff {t units : Text} :
    replaceEscapes? t = some units ↔ Decodes t units := by
  refine ⟨decodes_of_replaceEscapes?, fun h => ?_⟩
  induction h with
  | nil => rfl
  | point hc _ ih => rw [replaceEscapes?_cons hc, ih]; rfl
  | unit hd1 hd2 hd3 hd4 _ ih => simp [replaceEscapes?, unitOfHex?, hd1, hd2, hd3, hd4, ih]
  | named hc _ ih => rw [replaceEscapes?_pair hc, ih]; rfl
  | last => rfl

/-! ## 4. Keys and values that are refused -/

/-- Why a written key or value is refused. -/
inductive Refused (t : Text) : Corruption → Prop
  | malformedEscape : HasBrokenEscape t → Refused t (.malformedEscape t)
  | unpairedSurrogate {units : Text} :
      Decodes t units → Text.HasLoneHalf units → Refused t (.unpairedSurrogate t)

/-- A written key or value that has one of the two flaws. -/
def IsFlawed (t : Text) : Prop :=
  HasBrokenEscape t ∨ ∃ units, Decodes t units ∧ Text.HasLoneHalf units

theorem exists_refused_iff {t : Text} : (∃ cause, Refused t cause) ↔ IsFlawed t := by
  constructor
  · rintro ⟨cause, hbroken | ⟨hdecodes, hlone⟩⟩
    · exact .inl hbroken
    · exact .inr ⟨_, hdecodes, hlone⟩
  · rintro (hbroken | ⟨units, hdecodes, hlone⟩)
    · exact ⟨_, .malformedEscape hbroken⟩
    · exact ⟨_, .unpairedSurrogate hdecodes hlone⟩

/-- **A key or value is refused for its flaws alone.** -/
theorem unescape_eq_error_iff {t : Text} (hwhole : t.IsWhole) {cause : Corruption} :
    unescape t = .error cause ↔ Refused t cause := by
  unfold unescape
  split
  · next hback =>
    -- a text without a backslash stands for itself, and holds no half
    have hunits : replaceEscapes? t = some t := replaceEscapes?_of_not_mem (by simpa using hback)
    refine iff_of_false (by simp) ?_
    rintro (hbroken | ⟨hdecodes, hlone⟩)
    · rw [← replaceEscapes?_eq_none_iff, hunits] at hbroken
      cases hbroken
    · rw [← replaceEscapes?_eq_some_iff, hunits] at hdecodes
      cases hdecodes
      rw [← Text.pairHalves?_eq_none_iff, Text.pairHalves?_of_isWhole hwhole] at hlone
      cases hlone
  · constructor
    · intro h
      split at h
      · next hnone =>
        cases h
        exact .malformedEscape ((replaceEscapes?_eq_none_iff t).mp hnone)
      · next units hunits =>
        split at h
        · next hnone =>
          cases h
          exact .unpairedSurrogate (replaceEscapes?_eq_some_iff.mp hunits)
            ((Text.pairHalves?_eq_none_iff units).mp hnone)
        · cases h
    · rintro (hbroken | ⟨hdecodes, hlone⟩)
      · rw [(replaceEscapes?_eq_none_iff t).mpr hbroken]
      · rw [replaceEscapes?_eq_some_iff.mpr hdecodes]
        simp only [(Text.pairHalves?_eq_none_iff _).mpr hlone]

/-! ## 5. Lines and texts that are refused -/

/-- Why a logical line is refused: for its value, or for its key if nothing is wrong with the
value. -/
def LineRefused (line : Text) (cause : Corruption) : Prop :=
  Refused (splitLine line).2 cause ∨ ¬ IsFlawed (splitLine line).2 ∧
  Refused (splitLine line).1 cause

/-- A logical line of which the key or the value has a flaw. -/
def IsFlawedLine (line : Text) : Prop := IsFlawed (splitLine line).1 ∨ IsFlawed (splitLine line).2

theorem entryOfLine_eq (line : Text) :
    entryOfLine line = (unescape (splitLine line).2).bind fun v =>
      (unescape (splitLine line).1).bind fun k => .ok (k, v) := rfl

theorem entryOfLine_eq_error_iff {line : Text} (hwhole : line.IsWhole) {cause : Corruption} :
    entryOfLine line = .error cause ↔ LineRefused line cause := by
  have hkey : (splitLine line).1.IsWhole := fun c hc => hwhole c (mem_of_mem_splitLine (.inl hc))
  have hvalue : (splitLine line).2.IsWhole := fun c hc => hwhole c (mem_of_mem_splitLine (.inr hc))
  rw [entryOfLine_eq]
  cases hv : unescape (splitLine line).2 with
  | error cause' =>
    have hrefused := (unescape_eq_error_iff hvalue).mp hv
    constructor
    · intro h
      cases h
      exact .inl hrefused
    · rintro (hrefused' | ⟨hflawless, -⟩)
      · have heq := (unescape_eq_error_iff hvalue).mpr hrefused'
        rw [hv] at heq
        exact congrArg Except.error (Except.error.inj heq)
      · exact absurd (exists_refused_iff.mp ⟨cause', hrefused⟩) hflawless
  | ok v =>
    have hflawless : ¬ ∃ cause, Refused (splitLine line).2 cause := by
      rintro ⟨cause, hrefused⟩
      rw [← unescape_eq_error_iff hvalue, hv] at hrefused
      cases hrefused
    have hstep : ((unescape (splitLine line).1).bind fun k => Except.ok (k, v)) = .error cause ↔
        unescape (splitLine line).1 = .error cause := by
      cases unescape (splitLine line).1 <;> simp [Except.bind]
    refine hstep.trans ((unescape_eq_error_iff hkey).trans ⟨?_, ?_⟩)
    · exact fun hrefused => .inr ⟨fun h => hflawless (exists_refused_iff.mpr h), hrefused⟩
    · rintro (hrefused | ⟨-, hrefused⟩)
      · exact absurd ⟨cause, hrefused⟩ hflawless
      · exact hrefused

theorem exists_lineRefused_iff {line : Text} :
    (∃ cause, LineRefused line cause) ↔ IsFlawedLine line := by
  constructor
  · rintro ⟨cause, hrefused | ⟨-, hrefused⟩⟩
    · exact .inr (exists_refused_iff.mp ⟨cause, hrefused⟩)
    · exact .inl (exists_refused_iff.mp ⟨cause, hrefused⟩)
  · intro h
    by_cases hvalue : IsFlawed (splitLine line).2
    · obtain ⟨cause, hrefused⟩ := exists_refused_iff.mpr hvalue
      exact ⟨cause, .inl hrefused⟩
    · obtain ⟨cause, hrefused⟩ := exists_refused_iff.mpr (h.resolve_right hvalue)
      exact ⟨cause, .inr ⟨hvalue, hrefused⟩⟩

/-- **Lines are refused for the first of them that is at fault.** -/
theorem readLines_eq_error_iff {lines : List Text} (hwhole : ∀ line ∈ lines, line.IsWhole)
    (e : Entries) {cause : Corruption} :
    readLines e lines = .error cause ↔
      ∃ before line after, lines = before ++ line :: after ∧ (∀ l ∈ before, ¬ IsFlawedLine l) ∧
        LineRefused line cause := by
  induction lines generalizing e with
  | nil => simp [readLines]
  | cons line lines ih =>
    obtain ⟨hline, hlines⟩ := List.forall_mem_cons.mp hwhole
    have hstep : readLines e (line :: lines) =
        (entryOfLine line).bind fun p => readLines (e.insert p.1 p.2) lines := rfl
    rw [hstep]
    cases hentry : entryOfLine line with
    | error cause' =>
      have hrefused := (entryOfLine_eq_error_iff hline).mp hentry
      constructor
      · intro h
        cases h
        exact ⟨[], line, lines, rfl, by simp, hrefused⟩
      · rintro ⟨before, line', after, heq, hbefore, hrefused'⟩
        rcases List.cons_eq_append_iff.mp heq with ⟨rfl, hcons⟩ | ⟨before, rfl, rfl⟩
        · cases hcons
          rw [← entryOfLine_eq_error_iff hline, hentry] at hrefused'
          exact congrArg Except.error (Except.error.inj hrefused')
        · exact absurd (exists_lineRefused_iff.mp ⟨cause', hrefused⟩)
            (hbefore line List.mem_cons_self)
    | ok p =>
      have hflawless : ¬ IsFlawedLine line := by
        intro h
        obtain ⟨cause, hrefused⟩ := exists_lineRefused_iff.mpr h
        rw [← entryOfLine_eq_error_iff hline, hentry] at hrefused
        cases hrefused
      refine (ih hlines (e.insert p.1 p.2)).trans ⟨?_, ?_⟩
      · rintro ⟨before, line', after, rfl, hbefore, hrefused⟩
        exact ⟨line :: before, line', after, rfl, List.forall_mem_cons.mpr ⟨hflawless, hbefore⟩,
          hrefused⟩
      · rintro ⟨before, line', after, heq, hbefore, hrefused⟩
        rcases List.cons_eq_append_iff.mp heq with ⟨rfl, hcons⟩ | ⟨before, rfl, rfl⟩
        · cases hcons
          exact absurd (exists_lineRefused_iff.mp ⟨cause, hrefused⟩) hflawless
        · exact ⟨before, line', after, rfl, fun l hl => hbefore l (List.mem_cons_of_mem line hl),
            hrefused⟩

/-- Some line is at fault exactly if a first one is. -/
theorem exists_first_refused_iff {lines : List Text} :
    (∃ cause before line after, lines = before ++ line :: after ∧ (∀ l ∈ before, ¬ IsFlawedLine l) ∧
      LineRefused line cause) ↔ ∃ line ∈ lines, IsFlawedLine line := by
  constructor
  · rintro ⟨cause, before, line, after, rfl, -, hrefused⟩
    exact ⟨line, by simp, exists_lineRefused_iff.mp ⟨cause, hrefused⟩⟩
  · rintro ⟨line, hline, hflawed⟩
    induction lines with
    | nil => cases hline
    | cons first lines ih =>
      by_cases hfirst : IsFlawedLine first
      · obtain ⟨cause, hrefused⟩ := exists_lineRefused_iff.mpr hfirst
        exact ⟨cause, [], first, lines, rfl, by simp, hrefused⟩
      · have hmem : line ∈ lines := by
          rcases List.mem_cons.mp hline with rfl | hmem
          · exact absurd hflawed hfirst
          · exact hmem
        obtain ⟨cause, before, line', after, rfl, hbefore, hrefused⟩ := ih hmem
        exact ⟨cause, first :: before, line', after, rfl, List.forall_mem_cons.mpr
          ⟨hfirst, hbefore⟩, hrefused⟩

/-- **Bytes are refused exactly if a key or a value in them has a flaw**: a `\u` without four
digits, or half of a surrogate pair without the other. The first logical line at fault is reported,
its value before its key, and nothing but these flaws is. What is not refused holds no half of a
pair, so that the entries are read again from any text and from any bytes that they are written
as. -/
theorem ofPayload_bytes_refused_iff (content : Bytes) :
    ((∃ cause, ofPayload (.bytes content) = .error cause) ↔
        ∃ line ∈ logicalLines (Text.ofLatin1 content),
          IsFlawed (splitLine line).1 ∨ IsFlawed (splitLine line).2) ∧
      (∀ cause, ofPayload (.bytes content) = .error cause ↔
        ∃ before line after, logicalLines (Text.ofLatin1 content) = before ++ line :: after ∧
          (∀ l ∈ before, ¬ IsFlawed (splitLine l).1 ∧ ¬ IsFlawed (splitLine l).2) ∧
          (Refused (splitLine line).2 cause ∨
            ¬ IsFlawed (splitLine line).2 ∧ Refused (splitLine line).1 cause)) ∧
      ∀ e, ofPayload (.bytes content) = .ok e →
        e.IsWhole ∧ ∀ comment now, ofText (e.toText comment now) = .ok e ∧
          ((∀ c ∈ comment.getD [], c.val < 256) →
            ∃ stored, e.toBytes? comment now = some stored ∧
            ofPayload (.bytes stored) = .ok e) := by
  have hwhole : ∀ line ∈ logicalLines (Text.ofLatin1 content), line.IsWhole :=
    fun line hline c hc =>
    Text.isWhole_ofLatin1 content c (mem_of_mem_logicalLines hline c hc)
  have hrefused (cause : Corruption) : ofPayload (.bytes content) = .error cause ↔
      ∃ before line after, logicalLines (Text.ofLatin1 content) = before ++ line :: after ∧
        (∀ l ∈ before, ¬ IsFlawedLine l) ∧ LineRefused line cause :=
    readLines_eq_error_iff hwhole empty
  refine ⟨?_, fun cause => ?_, fun e h => ?_⟩
  · exact (exists_congr hrefused).trans exists_first_refused_iff
  · refine (hrefused cause).trans ?_
    simp only [LineRefused, IsFlawedLine, not_or]
  · have he := isWhole_of_ofPayload_bytes h
    refine ⟨he, fun comment now => ⟨ofText_toText he comment now, fun hcomment => ?_⟩⟩
    obtain ⟨stored, hstored⟩ := exists_toBytes? e now hcomment
    exact ⟨stored, hstored, ofPayload_of_toBytes? he hstored⟩

/-- A backslash that is escaped makes no escape of the `u` behind it, and halves in a key and in its
value do not belong together. -/
example :
    (ofText "a\\\\u=1\nb\\ud83d=\\ude00").map (·.pairs) =
      .error (.unpairedSurrogate "\\ude00") := by
  decide +kernel

end Entries

end IndexChain
