import IndexChain.Entries.Escaped

/-!
# Escaped texts — reading undoes writing

Reading an escaped text goes in two stages: every escape is replaced by the UTF-16 unit it stands
for (`replaceEscapes?`), and neighbouring halves of surrogate pairs are put together
(`pairHalves?`). Writing goes the other way, and per code point:

```
escapePoint blank c   ↦   c.units   ↦   c
```

**Each arrow is proved for one code point in front of any rest**, so both stages follow for whole
texts by one induction each. The first arrow holds of every code point, the halves of pairs
included; the second only of code points that are no halves, which is why `unescape_escapeKey` asks
for a text that is `Text.IsWhole`.

## What escapes look like

A backslash and the code point behind it belong together. Three readers step over such pairs (the
one here, the one that looks for the end of a key, and the one that asks whether a line is
continued), and none may stop between the two. `Escaped` says of a text that it consists of such
pairs and of other code points, and names the class from which those others are; all written texts
are of this shape.
-/

namespace IndexChain

/-! ## 1. Texts without halves of surrogate pairs -/

/-- No code point is half of a surrogate pair. -/
def Text.IsWhole (t : Text) : Prop := ∀ c ∈ t, c.isSurrogate = false

instance (t : Text) : Decidable t.IsWhole :=
  inferInstanceAs (Decidable (∀ c ∈ t, c.isSurrogate = false))

theorem Text.IsWhole.tail {c : CodePoint} {t : Text} (h : Text.IsWhole (c :: t)) : t.IsWhole :=
  fun d hd => h d (List.mem_cons_of_mem c hd)

namespace CodePoint

theorem isSurrogate_eq_false_iff {c : CodePoint} :
    c.isSurrogate = false ↔ c.val < 0xD800 ∨ 0xE000 ≤ c.val := by
  unfold isSurrogate
  rw [Bool.and_eq_false_iff, decide_eq_false_iff_not, decide_eq_false_iff_not]
  omega

theorem isHighSurrogate_iff {c : CodePoint} :
    c.isHighSurrogate = true ↔ 0xD800 ≤ c.val ∧ c.val < 0xDC00 := by
  simp [isHighSurrogate]

theorem isLowSurrogate_iff {c : CodePoint} :
    c.isLowSurrogate = true ↔ 0xDC00 ≤ c.val ∧ c.val < 0xE000 := by
  simp [isLowSurrogate]

theorem isHighSurrogate_of_not_surrogate {c : CodePoint} (h : c.isSurrogate = false) :
    c.isHighSurrogate = false := by
  rw [isSurrogate_eq_false_iff] at h
  rw [← Bool.not_eq_true, isHighSurrogate_iff]
  omega

theorem val_highHalf (c : CodePoint) :
    c.highHalf.val = 0xD800 + (c.val - 0x10000) / 0x400 % 0x400 := rfl

theorem val_lowHalf (c : CodePoint) :
    c.lowHalf.val = 0xDC00 + (c.val - 0x10000) % 0x400 := rfl

theorem val_ofHalves (high low : CodePoint) :
    (ofHalves high low).val =
      0x10000 + (high.val - 0xD800) % 0x400 * 0x400 + (low.val - 0xDC00) % 0x400 := rfl

/-- The halves of a code point above U+FFFF make that code point again. -/
theorem ofHalves_halves {c : CodePoint} (h : 0x10000 ≤ c.val) :
    ofHalves c.highHalf c.lowHalf = c := by
  have hc := c.isLt
  apply CodePoint.ext
  rw [val_ofHalves, val_highHalf, val_lowHalf]
  omega

theorem isHighSurrogate_highHalf (c : CodePoint) : c.highHalf.isHighSurrogate = true := by
  rw [isHighSurrogate_iff, val_highHalf]
  omega

theorem isLowSurrogate_lowHalf (c : CodePoint) : c.lowHalf.isLowSurrogate = true := by
  rw [isLowSurrogate_iff, val_lowHalf]
  omega

theorem isSurrogate_ofHalves (high low : CodePoint) :
    (ofHalves high low).isSurrogate = false := by
  rw [isSurrogate_eq_false_iff, val_ofHalves]
  omega

/-- Every unit fits into four hexadecimal digits. -/
theorem val_lt_of_mem_units {c u : CodePoint} (h : u ∈ c.units) : u.val < 0x10000 := by
  unfold units at h
  split at h
  · simp only [List.mem_singleton] at h
    subst h
    assumption
  · simp only [List.mem_cons, List.not_mem_nil, or_false] at h
    rcases h with rfl | rfl
    · rw [val_highHalf]; omega
    · rw [val_lowHalf]; omega

end CodePoint

namespace Text

theorem pairHalves?_cons {c : CodePoint} (h : c.isSurrogate = false) (rest : Text) :
    pairHalves? (c :: rest) = (pairHalves? rest).map (c :: ·) := by
  cases rest with
  | nil => simp [pairHalves?, h]
  | cons d rest => simp [pairHalves?, h, CodePoint.isHighSurrogate_of_not_surrogate h]

/-- **The units of a code point are read back as that code point**, whatever follows. -/
theorem pairHalves?_units {c : CodePoint} (h : c.isSurrogate = false) (rest : Text) :
    pairHalves? (c.units ++ rest) = (pairHalves? rest).map (c :: ·) := by
  unfold CodePoint.units
  split
  · exact pairHalves?_cons h rest
  · next hc =>
    simp [pairHalves?, CodePoint.isHighSurrogate_highHalf, CodePoint.isLowSurrogate_lowHalf,
      CodePoint.ofHalves_halves (Nat.le_of_not_lt hc)]

theorem pairHalves?_flatMap_units {t : Text} (h : t.IsWhole) :
    pairHalves? (t.flatMap CodePoint.units) = some t := by
  induction t with
  | nil => rfl
  | cons c t ih =>
    rw [List.flatMap_cons, pairHalves?_units (h c List.mem_cons_self), ih h.tail]
    rfl

theorem pairHalves?_of_isWhole {t : Text} (h : t.IsWhole) : pairHalves? t = some t := by
  induction t with
  | nil => rfl
  | cons c t ih =>
    rw [pairHalves?_cons (h c List.mem_cons_self), ih h.tail]
    rfl

/-- Putting halves together leaves none over. -/
theorem isWhole_of_pairHalves? {t u : Text} (h : pairHalves? t = some u) : u.IsWhole := by
  fun_induction pairHalves? t generalizing u with
  | case1 => simp_all [IsWhole]
  | case2 c hc => simp at h
  | case3 c hc =>
    simp only [Option.some.injEq] at h
    subst h
    simpa [IsWhole] using hc
  | case4 c d rest hc hd ih =>
    -- two halves, which make a code point that is none
    obtain ⟨v, hv, rfl⟩ := Option.map_eq_some_iff.mp h
    intro x hx
    rcases List.mem_cons.mp hx with rfl | hx
    · exact CodePoint.isSurrogate_ofHalves c d
    · exact ih hv x hx
  | case5 => simp at h
  | case6 => simp at h
  | case7 c d rest hc hs ih =>
    obtain ⟨v, hv, rfl⟩ := Option.map_eq_some_iff.mp h
    intro x hx
    rcases List.mem_cons.mp hx with rfl | hx
    · simpa using hs
    · exact ih hv x hx

end Text

/-! ## 2. Hexadecimal digits -/

theorem CodePoint.ofNat_val (c : CodePoint) : CodePoint.ofNat c.val = c := by
  simp [CodePoint.ofNat, c.isLt]

/-- The four digits of a unit, the most significant first. -/
theorem Text.hex_four (n : Nat) :
    Text.hex 4 n =
      [hexDigit 'A' (n / 16 / 16 / 16 % 16), hexDigit 'A' (n / 16 / 16 % 16),
        hexDigit 'A' (n / 16 % 16), hexDigit 'A' (n % 16)] := by
  simp [Text.hex, Text.hexDigits]

theorem Text.hexDigit?_hexDigit {n : Nat} (h : n < 16) : (hexDigit 'A' n).hexDigit? = some n := by
  revert n
  decide

namespace Entries

/-! ## 3. Replacing escapes -/

theorem unitOfHex?_hexDigits {n : Nat} (h : n < 0x10000) :
    unitOfHex? (Text.hexDigit 'A' (n / 16 / 16 / 16 % 16)) (Text.hexDigit 'A' (n / 16 / 16 % 16))
      (Text.hexDigit 'A' (n / 16 % 16)) (Text.hexDigit 'A' (n % 16)) = some (.ofNat n) := by
  have hdigit (m : Nat) : (Text.hexDigit 'A' (m % 16)).hexDigit? = some (m % 16) :=
    Text.hexDigit?_hexDigit (Nat.mod_lt m (by decide))
  have hsum : ((n / 16 / 16 / 16 % 16 * 16 + n / 16 / 16 % 16) * 16 + n / 16 % 16) * 16 +
      n % 16 = n := by
    omega
  simp only [unitOfHex?, hdigit, hsum]

theorem replaceEscapes?_cons {c : CodePoint} (h : c ≠ '\\') (rest : Text) :
    replaceEscapes? (c :: rest) = (replaceEscapes? rest).map (c :: ·) := by
  cases rest with
  | nil => rfl
  | cons d rest =>
    rw [replaceEscapes?.eq_def]
    simp [h]

theorem replaceEscapes?_pair {c : CodePoint} (h : c ≠ 'u') (rest : Text) :
    replaceEscapes? ('\\' :: c :: rest) = (replaceEscapes? rest).map (named c :: ·) := by
  rw [replaceEscapes?.eq_def]
  simp [h]

/-- The escape of a unit, code point by code point. -/
theorem unitEscape_eq (u : CodePoint) :
    unitEscape u =
      [CodePoint.ofChar '\\', CodePoint.ofChar 'u', Text.hexDigit 'A' (u.val / 16 / 16 / 16 % 16),
        Text.hexDigit 'A' (u.val / 16 / 16 % 16), Text.hexDigit 'A' (u.val / 16 % 16),
        Text.hexDigit 'A' (u.val % 16)] := by
  rw [unitEscape, Text.hex_four]
  rfl

/-- **The escape of a unit is read back as that unit.** -/
theorem replaceEscapes?_unitEscape {u : CodePoint} (h : u.val < 0x10000) (rest : Text) :
    replaceEscapes? (unitEscape u ++ rest) = (replaceEscapes? rest).map (u :: ·) := by
  rw [unitEscape_eq]
  simp only [List.cons_append, List.nil_append]
  rw [replaceEscapes?, if_pos rfl, if_pos rfl]
  simp only [unitOfHex?_hexDigits h, CodePoint.ofNat_val]

/-- …and those of several units one after the other. -/
theorem replaceEscapes?_flatMap_unitEscape {us : List CodePoint} (h : ∀ u ∈ us, u.val < 0x10000)
    (rest : Text) :
    replaceEscapes? (us.flatMap unitEscape ++ rest) = (replaceEscapes? rest).map (us ++ ·) := by
  induction us with
  | nil => simp
  | cons u us ih =>
    rw [List.flatMap_cons, List.append_assoc, replaceEscapes?_unitEscape (h u List.mem_cons_self),
      ih fun v hv => h v (List.mem_cons_of_mem u hv), Option.map_map]
    rfl

theorem CodePoint.units_of_lt {c : CodePoint} (h : c.val < 0x10000) : c.units = [c] := by
  simp [CodePoint.units, h]

/-- **What is written for a code point is read back as its units**, whatever follows. A space may be
    escaped or not: it is read as a space either way. -/
theorem replaceEscapes?_escapePoint (blank : Bool) (c : CodePoint) (rest : Text) :
    replaceEscapes? (escapePoint blank c ++ rest) = (replaceEscapes? rest).map (c.units ++ ·) := by
  have hnamed {d : CodePoint} (e : CodePoint) (he : e ≠ 'u') (hd : named e = d)
      (hlt : d.val < 0x10000) :
      replaceEscapes? ([CodePoint.ofChar '\\', e] ++ rest) = (replaceEscapes? rest).map
      (d.units ++ ·) := by
    rw [CodePoint.units_of_lt hlt]
    simpa [hd] using replaceEscapes?_pair he rest
  -- the cases are those of `escapePoint`, in its order
  unfold escapePoint
  split
  · next hc =>
    subst hc
    split
    · exact hnamed ' ' (by decide) rfl (by decide)
    · rw [CodePoint.units_of_lt (by decide)]
      exact replaceEscapes?_cons (by decide) rest
  split
  · next hc => subst hc; exact hnamed '\\' (by decide) rfl (by decide)
  split
  · next hc => subst hc; exact hnamed 't' (by decide) rfl (by decide)
  split
  · next hc => subst hc; exact hnamed 'n' (by decide) rfl (by decide)
  split
  · next hc => subst hc; exact hnamed 'r' (by decide) rfl (by decide)
  split
  · next hc => subst hc; exact hnamed 'f' (by decide) rfl (by decide)
  split
  · next hc =>
    simp only [Bool.or_eq_true, decide_eq_true_eq] at hc
    rcases hc with ((rfl | rfl) | rfl) | rfl
    · exact hnamed '=' (by decide) rfl (by decide)
    · exact hnamed ':' (by decide) rfl (by decide)
    · exact hnamed '#' (by decide) rfl (by decide)
    · exact hnamed '!' (by decide) rfl (by decide)
  split
  · next hback _ _ _ _ _ hc =>
    simp only [Bool.and_eq_true, decide_eq_true_eq] at hc
    rw [CodePoint.units_of_lt (by omega)]
    exact replaceEscapes?_cons hback rest
  · exact replaceEscapes?_flatMap_unitEscape (fun u hu => CodePoint.val_lt_of_mem_units hu) rest

/-- Something is written for every code point. -/
theorem escapePoint_ne_nil (blank : Bool) (c : CodePoint) : escapePoint blank c ≠ [] := by
  intro hnil
  -- from nothing no unit could be read
  have hread := replaceEscapes?_escapePoint blank c []
  have hunits : c.units ≠ [] := by
    unfold CodePoint.units
    split <;> simp
  simp [hnil, replaceEscapes?, hunits.symm] at hread

theorem replaceEscapes?_flatMap_escapePoint (blank : Bool) (t : Text) :
    replaceEscapes? (t.flatMap (escapePoint blank)) = some (t.flatMap CodePoint.units) := by
  induction t with
  | nil => rfl
  | cons c t ih =>
    rw [List.flatMap_cons, replaceEscapes?_escapePoint, ih]
    rfl

theorem replaceEscapes?_escapeKey (key : Text) :
    replaceEscapes? (escapeKey key) = some (key.flatMap CodePoint.units) :=
  replaceEscapes?_flatMap_escapePoint true key

theorem replaceEscapes?_escapeValue (value : Text) :
    replaceEscapes? (escapeValue value) = some (value.flatMap CodePoint.units) := by
  cases value with
  | nil => rfl
  | cons c rest =>
    rw [escapeValue, replaceEscapes?_escapePoint, replaceEscapes?_flatMap_escapePoint]
    rfl

/-- Without a backslash there is nothing to replace. -/
theorem replaceEscapes?_of_not_mem {t : Text} (h : CodePoint.ofChar '\\' ∉ t) :
    replaceEscapes? t = some t := by
  induction t with
  | nil => rfl
  | cons c t ih =>
    rw [replaceEscapes?_cons (fun hc => h (hc ▸ List.mem_cons_self)),
      ih fun hm => h (List.mem_cons_of_mem c hm)]
    rfl

/-! ## 4. The shape of escaped texts -/

/-- Printable ASCII, the only code points on written lines. -/
def IsPrintable (c : CodePoint) : Prop := 0x20 ≤ c.val ∧ c.val ≤ 0x7E

instance (c : CodePoint) : Decidable (IsPrintable c) := by unfold IsPrintable; infer_instance

/-- A text that consists of pairs of a backslash and a printable code point, and of other code
    points, each of the class `p`. No backslash stands alone at its end. -/
inductive Escaped (p : CodePoint → Prop) : Text → Prop
  | nil : Escaped p []
  | point {c : CodePoint} {t : Text} : c ≠ '\\' → p c → Escaped p t → Escaped p (c :: t)
  | pair {c : CodePoint} {t : Text} : IsPrintable c → Escaped p t → Escaped p ('\\' :: c :: t)

theorem Escaped.append {p : CodePoint → Prop} {s t : Text} (hs : Escaped p s) (ht : Escaped p t) :
    Escaped p (s ++ t) := by
  induction hs with
  | nil => exact ht
  | point hc hp _ ih => exact .point hc hp ih
  | pair hc _ ih => exact .pair hc ih

theorem Escaped.mono {p q : CodePoint → Prop} {t : Text} (hpq : ∀ c, p c → q c) (h : Escaped p t) :
    Escaped q t := by
  induction h with
  | nil => exact .nil
  | point hc hp _ ih => exact .point hc (hpq _ hp) ih
  | pair hc _ ih => exact .pair hc ih

theorem Escaped.isPrintable {p : CodePoint → Prop} {t : Text} (hp : ∀ c, p c → IsPrintable c)
    (h : Escaped p t) : ∀ c ∈ t, IsPrintable c := by
  induction h with
  | nil => simp
  | point _ hc _ ih => simpa using ⟨hp _ hc, ih⟩
  | pair hc _ ih => simpa using ⟨by decide, hc, ih⟩

/-- A printable code point that means nothing where it stands: it neither separates a key from its
    value nor begins a comment, and it is a space only where `blank` says that a space needs no
    escape. -/
def IsInert (blank : Bool) (c : CodePoint) : Prop :=
  IsPrintable c ∧ c ≠ '=' ∧ c ≠ ':' ∧ c ≠ '#' ∧ c ≠ '!' ∧ (blank = true → c ≠ ' ')

instance (blank : Bool) (c : CodePoint) : Decidable (IsInert blank c) := by
  unfold IsInert; infer_instance

theorem isInert_hexDigit (blank : Bool) (n : Nat) :
    IsInert blank (Text.hexDigit 'A' (n % 16)) := by
  -- there are sixteen digits
  have hall : ∀ b : Bool, ∀ m < 16, IsInert b (Text.hexDigit 'A' m) := by decide
  exact hall blank (n % 16) (Nat.mod_lt n (by decide))

theorem ne_backslash_hexDigit (n : Nat) : Text.hexDigit 'A' (n % 16) ≠ '\\' := by
  have hall : ∀ m < 16, Text.hexDigit 'A' m ≠ '\\' := by decide
  exact hall (n % 16) (Nat.mod_lt n (by decide))

theorem escaped_unitEscape (blank : Bool) (u : CodePoint) :
    Escaped (IsInert blank) (unitEscape u) := by
  have hdigit (n : Nat) {t : Text} (ht : Escaped (IsInert blank) t) :
      Escaped (IsInert blank) (Text.hexDigit 'A' (n % 16) :: t) :=
    .point (ne_backslash_hexDigit n) (isInert_hexDigit blank n) ht
  rw [unitEscape_eq]
  exact .pair (by decide) (hdigit _ (hdigit _ (hdigit _ (hdigit _ .nil))))

/-- **What is written for a code point is inert, or comes in pairs with a backslash.** -/
theorem escaped_escapePoint (blank : Bool) (c : CodePoint) :
    Escaped (IsInert blank) (escapePoint blank c) := by
  unfold escapePoint
  split
  · -- a space is only left as it is where it begins nothing
    cases blank with
    | true => exact .pair (by decide) .nil
    | false => exact .point (by decide) (by decide) .nil
  split
  · exact .pair (by decide) .nil
  split
  · exact .pair (by decide) .nil
  split
  · exact .pair (by decide) .nil
  split
  · exact .pair (by decide) .nil
  split
  · exact .pair (by decide) .nil
  split
  · next hmark =>
    simp only [Bool.or_eq_true, decide_eq_true_eq] at hmark
    refine .pair ?_ .nil
    rcases hmark with ((rfl | rfl) | rfl) | rfl <;> decide
  split
  · next hspace hback _ _ _ _ hmark hprint =>
    simp only [Bool.or_eq_true, decide_eq_true_eq, not_or] at hmark
    simp only [Bool.and_eq_true, decide_eq_true_eq] at hprint
    obtain ⟨⟨⟨h1, h2⟩, h3⟩, h4⟩ := hmark
    exact .point hback ⟨hprint, h1, h2, h3, h4, fun _ => hspace⟩ .nil
  · induction c.units with
    | nil => exact .nil
    | cons u us ih => exact (escaped_unitEscape blank u).append ih

theorem escaped_flatMap_escapePoint (blank : Bool) (t : Text) :
    Escaped (IsInert blank) (t.flatMap (escapePoint blank)) := by
  induction t with
  | nil => exact .nil
  | cons c t ih => exact (escaped_escapePoint blank c).append ih

theorem escaped_escapeKey (key : Text) : Escaped (IsInert true) (escapeKey key) :=
  escaped_flatMap_escapePoint true key

theorem IsInert.of_true {c : CodePoint} (h : IsInert true c) : IsInert false c := by
  obtain ⟨h0, h1, h2, h3, h4, _⟩ := h
  exact ⟨h0, h1, h2, h3, h4, by simp⟩

theorem escaped_escapeValue (value : Text) : Escaped (IsInert false) (escapeValue value) := by
  cases value with
  | nil => exact .nil
  | cons c rest =>
    exact ((escaped_escapePoint true c).mono fun _ => IsInert.of_true).append
      (escaped_flatMap_escapePoint false rest)

theorem isPrintable_escapeKey (key : Text) : ∀ c ∈ escapeKey key, IsPrintable c :=
  (escaped_escapeKey key).isPrintable fun _ hc => hc.1

theorem isPrintable_escapeValue (value : Text) : ∀ c ∈ escapeValue value, IsPrintable c :=
  (escaped_escapeValue value).isPrintable fun _ hc => hc.1

theorem isWhole_of_isPrintable {t : Text} (h : ∀ c ∈ t, IsPrintable c) : t.IsWhole := by
  intro c hc
  rw [CodePoint.isSurrogate_eq_false_iff]
  have := (h c hc).2
  omega

/-! ## 5. Reading escaped texts -/

/-- What reading yields where it does not fail. That a text without a backslash is taken as it
    stands makes no difference, unless it holds halves of pairs. -/
theorem unescape_of_replaceEscapes? {text units t : Text} (hwhole : text.IsWhole)
    (hunits : replaceEscapes? text = some units) (hpair : Text.pairHalves? units = some t) :
    unescape text = .ok t := by
  unfold unescape
  split
  · next hplain =>
    have hmem : CodePoint.ofChar '\\' ∉ text := by simpa using hplain
    rw [replaceEscapes?_of_not_mem hmem, Option.some.injEq] at hunits
    subst hunits
    rw [Text.pairHalves?_of_isWhole hwhole, Option.some.injEq] at hpair
    rw [hpair]
  · simp only [hunits, hpair]

theorem unescape_escapeKey {key : Text} (h : key.IsWhole) : unescape (escapeKey key) = .ok key :=
  unescape_of_replaceEscapes? (isWhole_of_isPrintable (isPrintable_escapeKey key))
    (replaceEscapes?_escapeKey key) (Text.pairHalves?_flatMap_units h)

theorem unescape_escapeValue {value : Text} (h : value.IsWhole) :
    unescape (escapeValue value) = .ok value :=
  unescape_of_replaceEscapes? (isWhole_of_isPrintable (isPrintable_escapeValue value))
    (replaceEscapes?_escapeValue value) (Text.pairHalves?_flatMap_units h)

/-- Reading a text without halves of pairs never makes one. -/
theorem isWhole_of_unescape {text t : Text} (hwhole : text.IsWhole) (h : unescape text = .ok t) :
    t.IsWhole := by
  unfold unescape at h
  split at h
  · cases h
    exact hwhole
  · split at h
    · cases h
    · split at h
      · cases h
      · next hpair =>
        cases h
        exact Text.isWhole_of_pairHalves? hpair

end Entries

end IndexChain
