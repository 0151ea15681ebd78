import IndexChain.Proofs.Moment.Layout

/-!
# Words — what a text says that gets through a layout

A text that gets through a layout is a sequence of words, one for each piece, however it was cut up:
**what is read is what the words say** (`Layout.cuts_of_read?`). Every reader takes a word off the
beginning of the text and leaves the rest (`Field.Takes`), and this carries over to all that is put
together from readers.

The words of a layout are not of a fixed width. A year has four digits, but a month, a day and the
fields of a time may do with one (`Field.Says`), and a day with a blank and a digit. So there may be
many ways to cut up a text, and it is not said here which of them counts.
-/

namespace IndexChain

namespace Text

variable {word word' : Text} {m n : Nat}

/-- The digits of a word, of whatever script, write a number. -/
def Spells (word : Text) (n : Nat) : Prop :=
  ∃ digits : List Nat, word.map CodePoint.digit? = digits.map some ∧ digitsValue digits = n

theorem Spells.singleton {c : CodePoint} (h : c.digit? = some n) : Spells [c] n :=
  ⟨[n], by simp [h], by simp [digitsValue]⟩

theorem Spells.append (h : Spells word m) (h' : Spells word' n) :
    Spells (word ++ word') (10 ^ word'.length * m + n) := by
  obtain ⟨digits, hdigits, rfl⟩ := h
  obtain ⟨digits', hdigits', rfl⟩ := h'
  have hlength : word'.length = digits'.length := by simpa using congrArg List.length hdigits'
  refine ⟨digits ++ digits', ?_, ?_⟩
  · rw [List.map_append, List.map_append, hdigits, hdigits']
  · rw [digitsValue_append, hlength]

theorem Spells.isSome_digit? (h : Spells word n) : ∀ c ∈ word, c.digit?.isSome := by
  obtain ⟨digits, hdigits, -⟩ := h
  intro c hc
  have hmem : c.digit? ∈ digits.map some := hdigits ▸ List.mem_map_of_mem hc
  obtain ⟨d, -, hd⟩ := List.mem_map.mp hmem
  rw [← hd]
  rfl

end Text

namespace Moment

namespace Field

open Text (Spells)

variable {t word rest : Text} {n width : Nat}

/-! ## 1. Readers -/

/-- A reader that takes a word of so many digits off a text and answers the number that they
write. -/
def Takes (width : Nat) (read : Text → Option (Nat × Text)) : Prop :=
  ∀ ⦃t n rest⦄, read t = some (n, rest) → ∃ word, t = word ++ rest ∧
  word.length = width ∧ Spells word n

theorem takes_anyDigit : Takes 1 anyDigit := by
  intro t n rest h
  cases t with
  | nil => cases h
  | cons c t =>
    obtain ⟨d, hd, heq⟩ := Option.map_eq_some_iff.mp h
    obtain ⟨rfl, rfl⟩ := Prod.mk.inj heq
    exact ⟨[c], rfl, rfl, .singleton hd⟩

theorem takes_asciiDigitIn (least most : Nat) : Takes 1 (asciiDigitIn least most) := by
  intro t n rest h
  cases t with
  | nil => cases h
  | cons c t =>
    rw [asciiDigitIn] at h
    split at h
    · next d hd =>
      split at h
      · obtain ⟨rfl, rfl⟩ := Prod.mk.inj (Option.some.inj h)
        exact ⟨[c], rfl, rfl, .singleton (CodePoint.digit?_of_asciiDigit? hd)⟩
      · cases h
    · cases h

theorem takes_twoDigits {tens ones : Text → Option (Nat × Text)} (htens : Takes 1 tens)
    (hones : Takes 1 ones) : Takes 2 (twoDigits tens ones) := by
  intro t n rest h
  obtain ⟨⟨a, t'⟩, ha, h⟩ := Option.bind_eq_some_iff.mp h
  obtain ⟨⟨b, t''⟩, hb, h⟩ := Option.bind_eq_some_iff.mp h
  obtain ⟨rfl, rfl⟩ := Prod.mk.inj (Option.some.inj h)
  obtain ⟨first, rfl, hfirst, hsays⟩ := htens ha
  obtain ⟨second, rfl, hsecond, hsays'⟩ := hones hb
  have hword := hsays.append hsays'
  rw [hsecond, Nat.pow_one] at hword
  exact ⟨first ++ second, (List.append_assoc ..).symm, by simp [hfirst, hsecond], hword⟩

/-- The digits at the beginning of a text are the digits of a word. -/
theorem exists_leadingDigits {value : CodePoint → Option Nat} (hvalue : ∀ c d, value c = some d →
    c.digit? = some d)
    (most : Nat) (t : Text) :
    ∃ word rest, t = word ++ rest ∧ word.length ≤ most ∧
      word.map CodePoint.digit? = (leadingDigits value most t).map some := by
  induction most generalizing t with
  | zero => exact ⟨[], t, rfl, Nat.le_refl 0, rfl⟩
  | succ most ih =>
    cases t with
    | nil => exact ⟨[], [], rfl, Nat.zero_le _, rfl⟩
    | cons c t =>
      rw [leadingDigits]
      split
      · next d hd =>
        obtain ⟨word, rest, rfl, hlength, hdigits⟩ := ih t
        refine ⟨c :: word, rest, rfl, Nat.succ_le_succ hlength, ?_⟩
        rw [List.map_cons, List.map_cons, hvalue c d hd, hdigits]
      · exact ⟨[], c :: t, rfl, Nat.zero_le _, rfl⟩

/-- One to six digits that write a fraction of a second, in microseconds. -/
def IsFraction (word : Text) (n : Nat) : Prop :=
  0 < word.length ∧ word.length ≤ 6 ∧ ∃ k, Spells word k ∧ n = k * 10 ^ (6 - word.length)

theorem exists_of_mem_fractionReadings {value : CodePoint → Option Nat}
    (hvalue : ∀ c d, value c = some d → c.digit? = some d)
    (h : (n, rest) ∈ fractionReadings value t) : ∃ word, t = word ++ rest ∧ IsFraction word n := by
  obtain ⟨i, hi, heq⟩ := List.mem_map.mp h
  obtain ⟨rfl, rfl⟩ := Prod.mk.inj heq
  obtain ⟨word, more, hword, hmost, hdigits⟩ := exists_leadingDigits hvalue 6 t
  have hlength : word.length = (leadingDigits value 6 t).length := by
    simpa using congrArg List.length hdigits
  have hi : i < word.length := by simpa [hlength] using hi
  have htake : t.take (i + 1) = word.take (i + 1) := by rw [hword, List.take_append_of_le_length hi]
  have hwidth : (t.take (i + 1)).length = i + 1 := by
    rw [htake, List.length_take]
    omega
  have hsays :
      Spells (t.take (i + 1)) (Text.digitsValue ((leadingDigits value 6 t).take (i + 1))) :=
    ⟨_, by rw [htake, List.map_take, hdigits, List.map_take], rfl⟩
  refine ⟨t.take (i + 1), (List.take_append_drop ..).symm, by omega, by omega, _, hsays, ?_⟩
  have hpower : 6 - (i + 1) = 5 - i := by omega
  rw [hwidth, hpower]
  rfl

/-! ## 2. Numbers -/

/-- A word of one digit or two. -/
def IsShort (word : Text) (n : Nat) : Prop := (word.length = 1 ∨ word.length = 2) ∧ Spells word n

/-- What the word of a field says. -/
def Says (f : Field) (word : Text) (n : Nat) : Prop :=
  match f with
  | year => word.length = 4 ∧ Spells word n
  | month | hour | minute | second => IsShort word n
  | day => IsShort word n ∨ ∃ digit, word = CodePoint.ofChar ' ' :: digit ∧ digit.length = 1 ∧
    Spells digit n
  | fraction => IsFraction word n
  | zone => False

theorem Takes.exists_isShort {read : Text → Option (Nat × Text)} (hread : Takes width read)
    (hwidth : width = 1 ∨ width = 2) (h : read t = some (n, rest)) :
    ∃ word, t = word ++ rest ∧ IsShort word n := by
  obtain ⟨word, rfl, rfl, hsays⟩ := hread h
  exact ⟨word, rfl, hwidth, hsays⟩

theorem exists_of_afterSpace {digit : Text → Option (Nat × Text)} (hdigit : Takes 1 digit)
    (h : afterSpace digit t = some (n, rest)) :
    ∃ word, t = CodePoint.ofChar ' ' :: word ++ rest ∧ word.length = 1 ∧ Spells word n := by
  cases t with
  | nil => cases h
  | cons c t =>
    rw [afterSpace] at h
    split at h
    · next hc =>
      obtain ⟨word, rfl, hlength, hsays⟩ := hdigit h
      exact ⟨word, by rw [hc]; rfl, hlength, hsays⟩
    · cases h

/-- **A field takes a word that says what was read.** -/
theorem says_of_mem_numbers {f : Field} (h : (n, rest) ∈ f.numbers t) :
    ∃ word, t = word ++ rest ∧ f.Says word n := by
  have hdigit (least most : Nat) := takes_asciiDigitIn least most
  have hinside (least most low high : Nat) := takes_twoDigits (hdigit least most) (hdigit low high)
  have hbelow (least most : Nat) := takes_twoDigits (hdigit least most) takes_anyDigit
  cases f with
  | year =>
    obtain ⟨way, hway, hread⟩ := List.mem_filterMap.mp h
    obtain rfl := List.mem_singleton.mp hway
    obtain ⟨⟨a, t'⟩, ha, hread⟩ := Option.bind_eq_some_iff.mp hread
    obtain ⟨⟨b, t''⟩, hb, hread⟩ := Option.bind_eq_some_iff.mp hread
    obtain ⟨rfl, rfl⟩ := Prod.mk.inj (Option.some.inj hread)
    obtain ⟨century, rfl, hcentury, hsays⟩ := takes_twoDigits takes_anyDigit takes_anyDigit ha
    obtain ⟨decade, rfl, hdecade, hsays'⟩ := takes_twoDigits takes_anyDigit takes_anyDigit hb
    have hword := hsays.append hsays'
    rw [hdecade] at hword
    exact ⟨century ++ decade, (List.append_assoc ..).symm, by simp [hcentury, hdecade], hword⟩
  | month =>
    obtain ⟨way, hway, hread⟩ := List.mem_filterMap.mp h
    simp only [List.mem_cons, List.not_mem_nil, or_false] at hway
    obtain rfl | rfl | rfl := hway
    · exact (hinside ..).exists_isShort (.inr rfl) hread
    · exact (hinside ..).exists_isShort (.inr rfl) hread
    · exact (hdigit ..).exists_isShort (.inl rfl) hread
  | day =>
    obtain ⟨way, hway, hread⟩ := List.mem_filterMap.mp h
    simp only [List.mem_cons, List.not_mem_nil, or_false] at hway
    have hshort (h : ∃ word, t = word ++ rest ∧ IsShort word n) : ∃ word, t = word ++ rest ∧
        day.Says word n := by
      obtain ⟨word, rfl, hword⟩ := h
      exact ⟨word, rfl, .inl hword⟩
    obtain rfl | rfl | rfl | rfl | rfl := hway
    · exact hshort ((hinside ..).exists_isShort (.inr rfl) hread)
    · exact hshort ((hbelow ..).exists_isShort (.inr rfl) hread)
    · exact hshort ((hinside ..).exists_isShort (.inr rfl) hread)
    · exact hshort ((hdigit ..).exists_isShort (.inl rfl) hread)
    · obtain ⟨digit, rfl, hlength, hsays⟩ := exists_of_afterSpace (hdigit ..) hread
      exact ⟨_, rfl, .inr ⟨digit, rfl, hlength, hsays⟩⟩
  | hour =>
    obtain ⟨way, hway, hread⟩ := List.mem_filterMap.mp h
    simp only [List.mem_cons, List.not_mem_nil, or_false] at hway
    obtain rfl | rfl | rfl := hway
    · exact (hinside ..).exists_isShort (.inr rfl) hread
    · exact (hbelow ..).exists_isShort (.inr rfl) hread
    · exact takes_anyDigit.exists_isShort (.inl rfl) hread
  | minute =>
    obtain ⟨way, hway, hread⟩ := List.mem_filterMap.mp h
    simp only [List.mem_cons, List.not_mem_nil, or_false] at hway
    obtain rfl | rfl := hway
    · exact (hbelow ..).exists_isShort (.inr rfl) hread
    · exact takes_anyDigit.exists_isShort (.inl rfl) hread
  | second =>
    obtain ⟨way, hway, hread⟩ := List.mem_filterMap.mp h
    simp only [List.mem_cons, List.not_mem_nil, or_false] at hway
    obtain rfl | rfl | rfl := hway
    · exact (hinside ..).exists_isShort (.inr rfl) hread
    · exact (hbelow ..).exists_isShort (.inr rfl) hread
    · exact takes_anyDigit.exists_isShort (.inl rfl) hread
  | fraction => exact exists_of_mem_fractionReadings (fun _ _ => CodePoint.digit?_of_asciiDigit?) h
  | zone => cases h

/-! ## 3. Offsets -/

/-- A colon, or nothing. -/
def colonText (colon : Bool) : Text := if colon then [CodePoint.ofChar ':'] else []

/-- What may follow the minutes of an offset: nothing, or seconds, with a fraction or without. -/
inductive SaysSeconds (colon : Bool) : Text → Nat → Prop
  | none : SaysSeconds colon [] 0
  | whole {word : Text} {seconds : Nat} : word.length = 2 → Spells word seconds →
      SaysSeconds colon (colonText colon ++ word) (seconds * microsPerSecond)
  | fraction {word part : Text} {seconds micros : Nat} : word.length = 2 → Spells word seconds →
      IsFraction part micros →
        SaysSeconds colon (colonText colon ++ word ++ CodePoint.ofChar '.' :: part)
        (seconds * microsPerSecond + micros)

/-- The hours, minutes and seconds of an offset, with colons between them or without. -/
def SaysSize (word : Text) (size : Nat) : Prop :=
  ∃ colon hours minutes more, ∃ h m micros : Nat,
    word = hours ++ (colonText colon ++ (minutes ++ more)) ∧ (hours.length = 2 ∧ Spells hours h) ∧
      (minutes.length = 2 ∧ Spells minutes m) ∧ SaysSeconds colon more micros ∧
        size = (h * 60 + m) * 60 * microsPerSecond + micros

/-- The words of offsets, with the lead over UTC that they write in microseconds. -/
inductive SaysOffset : Text → Int → Prop
  | utc : SaysOffset [CodePoint.ofChar 'Z'] 0
  | ahead {word : Text} {size : Nat} : SaysSize word size →
    SaysOffset (CodePoint.ofChar '+' :: word) size
  | behind {word : Text} {size : Nat} : SaysSize word size →
    SaysOffset (CodePoint.ofChar '-' :: word) (-size)

theorem SaysOffset.of_sign {c : CodePoint} {size : Nat} (hc : c = CodePoint.ofChar '+' ∨
    c = CodePoint.ofChar '-')
    (h : SaysSize word size) : SaysOffset (c :: word) (if c = '-' then -size else size) := by
  obtain rfl | rfl := hc
  · rw [if_neg (by decide)]
    exact .ahead h
  · rw [if_pos rfl]
    exact .behind h

theorem eq_of_optionalColon {colon : Bool} (h : optionalColon t = (colon, rest)) :
    t = colonText colon ++ rest := by
  cases t with
  | nil =>
    obtain ⟨rfl, rfl⟩ := Prod.mk.inj h
    rfl
  | cons c t =>
    rw [optionalColon] at h
    split at h
    · next hc =>
      obtain ⟨rfl, rfl⟩ := Prod.mk.inj h
      rw [hc]
      rfl
    · obtain ⟨rfl, rfl⟩ := Prod.mk.inj h
      rfl

theorem saysSeconds_of_mem {second : Option Bool} (h : (second, n, rest) ∈ secondsReadings t) :
    ∃ word, t = word ++ rest ∧ ∀ colon, SaysSeconds (second.getD colon) word n := by
  rcases hsplit : optionalColon t with ⟨mark, after⟩
  have ht := eq_of_optionalColon hsplit
  simp only [secondsReadings, hsplit] at h
  rcases List.mem_append.mp h with hread | hnone
  · split at hread
    · cases hread
    · next seconds left htwo =>
      obtain ⟨word, rfl, hlength, hsays⟩ :=
        takes_twoDigits (takes_asciiDigitIn 0 5) takes_anyDigit htwo
      have halone (h : (second, n, rest) ∈ [(some mark, seconds * microsPerSecond, left)]) :
          ∃ word, t = word ++ rest ∧ ∀ colon, SaysSeconds (second.getD colon) word n := by
        obtain ⟨rfl, rfl, rfl⟩ : second = some mark ∧ n = seconds * microsPerSecond ∧
            rest = left := by simpa using h
        exact ⟨colonText mark ++ word, by rw [ht, List.append_assoc], fun _ => .whole hlength hsays⟩
      split at hread
      · exact halone hread
      · split at hread
        · next hc =>
          rcases List.mem_append.mp hread with hfraction | hwhole
          · obtain ⟨⟨micros, left'⟩, hmem, heq⟩ := List.mem_map.mp hfraction
            obtain ⟨part, rfl, hpart⟩ := exists_of_mem_fractionReadings (fun _ _ h => h) hmem
            obtain ⟨rfl, rfl, rfl⟩ : some mark = second ∧ seconds * microsPerSecond + micros = n ∧
                left' = rest := by
              simpa using heq
            exact ⟨colonText mark ++ word ++ CodePoint.ofChar '.' :: part, by simp [ht, hc],
              fun _ => .fraction hlength hsays hpart⟩
          · exact halone hwhole
        · exact halone hread
  · obtain ⟨rfl, rfl, rfl⟩ : second = none ∧ n = 0 ∧ rest = t := by simpa using hnone
    exact ⟨[], rfl, fun _ => .none⟩

/-- **An offset takes a word, which says what was read** if its colons agree. -/
theorem saysOffset_of_mem {offset : Option Int} (h : (offset, rest) ∈ offsets t) :
    ∃ word, t = word ++ rest ∧ ∀ lead ∈ offset, SaysOffset word lead := by
  cases t with
  | nil => cases h
  | cons c t =>
    rw [offsets] at h
    split at h
    · next hc =>
      obtain ⟨rfl, rfl⟩ : offset = some 0 ∧ rest = t := by simpa using h
      refine ⟨[c], rfl, ?_⟩
      rintro lead ⟨⟩
      exact hc ▸ .utc
    split at h
    · next hsign =>
      split at h
      · cases h
      · next hours t' hhours =>
        obtain ⟨first, rfl, hfirst⟩ := takes_twoDigits takes_anyDigit takes_anyDigit hhours
        rcases hsplit : optionalColon t' with ⟨colon, after⟩
        obtain rfl := eq_of_optionalColon hsplit
        simp only [hsplit] at h
        split at h
        · cases h
        · next minutes t'' hminutes =>
          obtain ⟨middle, rfl, hmiddle⟩ :=
            takes_twoDigits (takes_asciiDigitIn 0 5) takes_anyDigit hminutes
          obtain ⟨⟨second, micros, left⟩, hmem, heq⟩ := List.mem_map.mp h
          obtain ⟨rfl, rfl⟩ := Prod.mk.inj heq
          obtain ⟨more, rfl, hmore⟩ := saysSeconds_of_mem hmem
          refine ⟨c :: (first ++ (colonText colon ++ (middle ++ more))), by simp, ?_⟩
          intro lead hlead
          split at hlead
          · next hagree =>
            have hmore := hmore colon
            rw [beq_iff_eq.mp hagree] at hmore
            have hsize : SaysSize (first ++ (colonText colon ++ (middle ++ more)))
                ((hours * 60 + minutes) * 60 * microsPerSecond + micros) :=
              ⟨colon, first, middle, more, hours, minutes, micros, rfl, hfirst, hmiddle, hmore, rfl⟩
            rw [← Option.some.inj hlead]
            exact .of_sign (by simpa using hsign) hsize
          · cases hlead
    · cases h

end Field

/-! ## 4. Layouts -/

/-- What it comes to that a word stands in the place of a piece. Of an offset whose colons do not
agree it is not said what it writes. -/
inductive Piece.Says : Piece → Text → Reading → Reading → Prop
  | field {f : Field} {word : Text} {n : Nat} {r : Reading} : f.Says word n →
    Says (.field f) word r (f.record n r)
  | offset {word : Text} {offset : Option Int} {r : Reading} :
      (∀ lead ∈ offset, Field.SaysOffset word lead) →
      Says (.field .zone) word r { r with offset := some offset }
  | blanks {word : Text} {r : Reading} : word ≠ [] → (∀ c ∈ word, c.isWhitespace = true) →
    Says .blanks word r r
  | literal {c d : CodePoint} {r : Reading} : c.sameLetter d = true → Says (.literal c) [d] r r

/-- A sequence of words in the places of a layout, and what they say. -/
inductive Layout.Cuts : Layout → List Text → Reading → Reading → Prop
  | nil {r : Reading} : Cuts [] [] r r
  | cons {p : Piece} {layout : Layout} {word : Text} {words : List Text} {r r' r'' : Reading} :
      p.Says word r r' → Cuts layout words r' r'' → Cuts (p :: layout) (word :: words) r r''

variable {r r' : Reading} {t rest : Text}

theorem Layout.Cuts.uncons {p : Piece} {layout : Layout} {words : List Text}
    (h : Cuts (p :: layout) words r r') :
    ∃ word more r'', words = word :: more ∧ p.Says word r r'' ∧ Cuts layout more r'' r' := by
  cases h with
  | cons hword hmore => exact ⟨_, _, _, rfl, hword, hmore⟩

theorem Field.says_of_mem_readings {f : Field} (hf : f ≠ .zone) (h : (r', rest) ∈ f.readings r t) :
    ∃ word, t = word ++ rest ∧ (Piece.field f).Says word r r' := by
  have hmem : (r', rest) ∈ (f.numbers t).map fun p => (f.record p.1 r, p.2) := by
    cases f with
    | zone => exact absurd rfl hf
    | _ => exact h
  obtain ⟨⟨n, left⟩, hread, heq⟩ := List.mem_map.mp hmem
  obtain ⟨rfl, rfl⟩ := Prod.mk.inj heq
  obtain ⟨word, rfl, hsays⟩ := says_of_mem_numbers hread
  exact ⟨word, rfl, .field hsays⟩

/-- **What is read in the place of a piece is a word there.** -/
theorem Piece.says_of_mem_readings {p : Piece} (h : (r', rest) ∈ p.readings r t) :
    ∃ word, t = word ++ rest ∧ p.Says word r r' := by
  cases p with
  | field f =>
    by_cases hf : f = .zone
    · subst hf
      obtain ⟨⟨offset, left⟩, hmem, heq⟩ := List.mem_map.mp h
      obtain ⟨rfl, rfl⟩ := Prod.mk.inj heq
      obtain ⟨word, rfl, hsays⟩ := Field.saysOffset_of_mem hmem
      exact ⟨word, rfl, .offset hsays⟩
    · exact Field.says_of_mem_readings hf h
  | blanks =>
    obtain ⟨i, hi, heq⟩ := List.mem_map.mp h
    obtain ⟨rfl, rfl⟩ := Prod.mk.inj heq
    have hi : i < (t.takeWhile CodePoint.isWhitespace).length := by simpa using hi
    have htake : t.take (i + 1) = (t.takeWhile CodePoint.isWhitespace).take (i + 1) := by
      conv_lhs => rw [← t.takeWhile_append_dropWhile (p := CodePoint.isWhitespace)]
      exact List.take_append_of_le_length hi
    refine ⟨t.take (i + 1), (List.take_append_drop ..).symm, .blanks ?_ ?_⟩
    · rw [htake]
      intro hnil
      have hlength := congrArg List.length hnil
      rw [List.length_take, List.length_nil] at hlength
      omega
    · intro c hc
      exact List.all_eq_true.mp t.all_takeWhile c (List.mem_of_mem_take (htake ▸ hc))
  | literal c =>
    cases t with
    | nil => cases h
    | cons d t =>
      rw [readings] at h
      split at h
      · next hsame =>
        obtain ⟨rfl, rfl⟩ : r' = r ∧ rest = t := by simpa using h
        exact ⟨[d], rfl, .literal hsame⟩
      · cases h

/-- **What gets through a layout consists of words, and what is read is what they say.** -/
theorem Layout.cuts_of_read? {layout : Layout} (h : layout.read? r t = some (r', rest)) :
    ∃ words, t = words.flatten ++ rest ∧ layout.Cuts words r r' := by
  induction layout generalizing r t with
  | nil =>
    obtain ⟨rfl, rfl⟩ := Prod.mk.inj (Option.some.inj h)
    exact ⟨[], rfl, .nil⟩
  | cons p layout ih =>
    obtain ⟨⟨r'', t'⟩, hmem, hread⟩ := List.exists_of_findSome?_eq_some h
    obtain ⟨word, rfl, hword⟩ := Piece.says_of_mem_readings hmem
    obtain ⟨words, rfl, hwords⟩ := ih hread
    exact ⟨word :: words, by simp, .cons hword hwords⟩

end Moment

end IndexChain
