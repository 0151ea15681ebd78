import IndexChain.Proofs.Entries.Flaws

/-!
# Halves — what is read of a text that holds halves of pairs

A text can hold halves of surrogate pairs, and `unescape_escapeKey` is about texts that hold none.
Writing does not tell a half from any other code point: it becomes the escape of one unit, as a code
point above U+FFFF becomes those of two. So reading cannot tell two halves side by side from what
they encode, and pairs them (`Text.joinHalves`).

**`readsBack_escaped` says that this is all that happens.** Which units are escaped, in a key or in
a value, and what stands before or behind them, makes no difference: a backslash of the text is
written as two, so that a `u` behind it begins no escape. Only a half that is left over, next to a
code point above U+FFFF for one, makes what was written unreadable.
-/

namespace IndexChain

namespace CodePoint

/-! ## 1. Halves side by side -/

/-- The units of what two halves encode are those halves. -/
theorem units_ofHalves {c d : CodePoint} (hc : c.isHighSurrogate = true)
    (hd : d.isLowSurrogate = true) : (ofHalves c d).units = [c, d] := by
  rw [isHighSurrogate_iff] at hc
  rw [isLowSurrogate_iff] at hd
  have hval := val_ofHalves c d
  have hhigh : (ofHalves c d).highHalf = c := by
    apply CodePoint.ext
    rw [val_highHalf]
    omega
  have hlow : (ofHalves c d).lowHalf = d := by
    apply CodePoint.ext
    rw [val_lowHalf]
    omega
  rw [units, if_neg (by omega), hhigh, hlow]

theorem units_of_isSurrogate {c : CodePoint} (h : c.isSurrogate = true) : c.units = [c] := by
  simp only [isSurrogate, Bool.and_eq_true, decide_eq_true_eq] at h
  exact if_pos (by omega)

theorem units_ne_nil (c : CodePoint) : c.units ≠ [] := by
  unfold units
  split <;> simp

/-- The first unit closes a pair only if the code point does. -/
theorem isLowSurrogate_head_units {c d : CodePoint} (h : c.isLowSurrogate = false)
    (hd : d ∈ c.units.head?) : d.isLowSurrogate = false := by
  unfold units at hd
  split at hd
  · rwa [← Option.some.inj hd]
  · rw [← Option.some.inj hd, Bool.eq_false_iff, ne_eq, isLowSurrogate_iff, val_highHalf]
    omega

end CodePoint

namespace Text

/-- The text with every two halves that belong together replaced by the code point they encode; a
half without the other stays as it is. -/
def joinHalves : Text → Text
  | [] => []
  | [c] => [c]
  | c :: d :: rest =>
    if c.isHighSurrogate && d.isLowSurrogate then CodePoint.ofHalves c d :: joinHalves rest
    else c :: joinHalves (d :: rest)

/-- **Joining halves does not change the units of a text.** -/
theorem units_joinHalves (t : Text) :
    t.joinHalves.flatMap CodePoint.units = t.flatMap CodePoint.units := by
  fun_induction joinHalves t with
  | case1 => rfl
  | case2 => rfl
  | case3 c d rest h ih =>
    obtain ⟨hc, hd⟩ := Bool.and_eq_true_iff.mp h
    have hc' : c.units = [c] :=
      CodePoint.units_of_isSurrogate (by simp [Entries.isSurrogate_eq, hc])
    have hd' : d.units = [d] :=
      CodePoint.units_of_isSurrogate (by simp [Entries.isSurrogate_eq, hd])
    simp only [List.flatMap_cons, CodePoint.units_ofHalves hc hd, hc', hd', ih, List.cons_append,
      List.nil_append]
  | case4 c d rest _ ih => rw [List.flatMap_cons, ih, List.flatMap_cons (x := c)]

/-- The units of a code point that is no half leave none over. -/
theorem hasLoneHalf_units {c : CodePoint} (h : c.isSurrogate = false) (t : Text) :
    HasLoneHalf (c.units ++ t) ↔ HasLoneHalf t := by
  unfold CodePoint.units
  split
  · exact hasLoneHalf_cons h t
  · exact hasLoneHalf_pair c.isHighSurrogate_highHalf c.isLowSurrogate_lowHalf t

/-- A half that is not joined is left over: behind one that opens a pair the next code point does
not close it, and one that closes a pair stands first. -/
theorem hasLoneHalf_of_isSurrogate {c : CodePoint} {t : Text} (hc : c.isSurrogate = true)
    (ht : ∀ d ∈ t.head?, (c.isHighSurrogate && d.isLowSurrogate) = false) :
    HasLoneHalf (c.units ++ t.flatMap CodePoint.units) := by
  rw [CodePoint.units_of_isSurrogate hc]
  by_cases hhigh : c.isHighSurrogate = true
  · apply hasLoneHalf_high hhigh
    cases t with
    | nil => rfl
    | cons d t =>
      have hd : d.isLowSurrogate = false := by simpa [hhigh] using ht d rfl
      cases hunits : d.units with
      | nil => exact absurd hunits d.units_ne_nil
      | cons e es =>
        have he := CodePoint.isLowSurrogate_head_units hd (d := e) (by simp [hunits])
        simp [hunits, he]
  · rw [Entries.isSurrogate_eq, Bool.or_eq_true] at hc
    exact hasLoneHalf_low (hc.resolve_left hhigh) _

/-- **Where no half is left over, all are joined.** -/
theorem isWhole_joinHalves {t : Text} (h : ¬ HasLoneHalf (t.flatMap CodePoint.units)) :
    t.joinHalves.IsWhole := by
  fun_induction joinHalves t with
  | case1 => simp [IsWhole]
  | case2 c =>
    cases hc : c.isSurrogate with
    | false => simpa [IsWhole] using hc
    | true => exact absurd (hasLoneHalf_of_isSurrogate (t := []) hc (by simp)) h
  | case3 c d rest hpair ih =>
    obtain ⟨hc, hd⟩ := Bool.and_eq_true_iff.mp hpair
    rw [← units_joinHalves, joinHalves, if_pos hpair, List.flatMap_cons,
      CodePoint.units_ofHalves hc hd, List.cons_append, List.cons_append, List.nil_append,
      hasLoneHalf_pair hc hd, units_joinHalves] at h
    exact List.forall_mem_cons.mpr ⟨CodePoint.isSurrogate_ofHalves c d, ih h⟩
  | case4 c d rest hpair ih =>
    rw [List.flatMap_cons] at h
    cases hc : c.isSurrogate with
    | false =>
      exact List.forall_mem_cons.mpr
        ⟨hc, ih fun hlone => h ((hasLoneHalf_units hc _).mpr hlone)⟩
    | true => exact absurd (hasLoneHalf_of_isSurrogate (t := d :: rest) hc (by simpa using hpair)) h

/-- **The units of a text are paired as the text itself would be.** -/
theorem pairHalves?_units_eq_some {t : Text} (h : ¬ HasLoneHalf (t.flatMap CodePoint.units)) :
    pairHalves? (t.flatMap CodePoint.units) = some t.joinHalves := by
  rw [← units_joinHalves]
  exact pairHalves?_flatMap_units (isWhole_joinHalves h)

end Text

namespace Entries

/-! ## 2. Reading what was written -/

/-- Reading `written` comes to the text `t`, its halves joined; if one is left over it is refused,
for that and for nothing else. -/
structure ReadsBack (written t : Text) : Prop where
  refused : ∀ cause, unescape written = .error cause ↔
    cause = .unpairedSurrogate written ∧ Text.HasLoneHalf (t.flatMap CodePoint.units)
  read : ∀ u, unescape written = .ok u ↔
    ¬ Text.HasLoneHalf (t.flatMap CodePoint.units) ∧ u = t.joinHalves

/-- What counts is that the escapes stand for the units of the text. -/
theorem readsBack_of_replaceEscapes? {written t : Text} (hwhole : written.IsWhole)
    (h : replaceEscapes? written = some (t.flatMap CodePoint.units)) : ReadsBack written t := by
  have hrefused (cause : Corruption) : unescape written = .error cause ↔
      cause = .unpairedSurrogate written ∧ Text.HasLoneHalf (t.flatMap CodePoint.units) := by
    rw [unescape_eq_error_iff hwhole]
    constructor
    · intro hcause
      cases hcause with
      | malformedEscape hbroken =>
        rw [← replaceEscapes?_eq_none_iff, h] at hbroken
        cases hbroken
      | unpairedSurrogate hdecodes hlone =>
        rw [← replaceEscapes?_eq_some_iff, h] at hdecodes
        cases hdecodes
        exact ⟨rfl, hlone⟩
    · rintro ⟨rfl, hlone⟩
      exact .unpairedSurrogate (replaceEscapes?_eq_some_iff.mp h) hlone
  have hread (hlone : ¬ Text.HasLoneHalf (t.flatMap CodePoint.units)) :
      unescape written = .ok t.joinHalves :=
    unescape_of_replaceEscapes? hwhole h (Text.pairHalves?_units_eq_some hlone)
  refine ⟨hrefused, fun u => ⟨fun hu => ?_, ?_⟩⟩
  · have hlone : ¬ Text.HasLoneHalf (t.flatMap CodePoint.units) := by
      intro hlone
      rw [(hrefused _).mpr ⟨rfl, hlone⟩] at hu
      cases hu
    rw [hread hlone] at hu
    exact ⟨hlone, (Except.ok.inj hu).symm⟩
  · rintro ⟨hlone, rfl⟩
    exact hread hlone

/-- **Reading undoes writing, up to the pairing of halves.** What is written of any text, as a key
or as a value, is refused exactly if a half is left over among the units of the text, and then for
that. Otherwise it is read as the text with every two halves that belong together replaced by the
code point they encode. -/
theorem readsBack_escaped (t : Text) : ReadsBack (escapeKey t) t ∧ ReadsBack (escapeValue t) t :=
  ⟨readsBack_of_replaceEscapes? (isWhole_of_isPrintable (isPrintable_escapeKey t))
    (replaceEscapes?_escapeKey t), readsBack_of_replaceEscapes?
    (isWhole_of_isPrintable (isPrintable_escapeValue t)) (replaceEscapes?_escapeValue t)⟩

/-- A backslash before a `u`, and two halves side by side. -/
example : unescape (escapeKey
    (("\\ud83d" : Text) ++ [CodePoint.ofNat 0xD83D, CodePoint.ofNat 0xDE00])) = .ok "\\ud83d😀" := by
  decide +kernel

end Entries

end IndexChain
