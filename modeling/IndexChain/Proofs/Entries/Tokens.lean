import IndexChain.Proofs.Entries.Flaws

/-!
# Tokens — no escape is ever cut

`replaceEscapes?` takes a text in pieces: an escape of a unit is six code points, any other escape
two, and everything else is one (`tokens`, and `replaceEscapes?_eq_mapM` says that these are its
pieces). The passes before it know nothing of that. Whether a natural line is continued is a matter
of the backslashes at its end, and those of the lines that it continues are not counted again; the
scan for the end of a key goes two steps at a backslash, without a look at the end of the line
(`keyEnd`).

**None of these cuts is within a token** (`logicalLines_cut_between_tokens`). What carries this is
that a logical line is `Complete`, however many natural lines it is made of: each leaves a complete
text behind, because the backslash of a line that is left open is dropped. On a complete line the
scan does not go past the end (`Complete.keyEnd_le`), and it stops at a blank or a separator, which
is no hexadecimal digit and so has no part in an escape before it (`Complete.tokens_append`).
-/

namespace IndexChain.Entries

/-! ## 1. Tokens -/

/-- A text in the pieces that reading it takes in one go. -/
def tokens : Text → List Text
  | [] => []
  | [c] => [[c]]
  | c :: d :: rest =>
    if c = '\\' then
      match rest with
      | h1 :: h2 :: h3 :: h4 :: rest' =>
        if d = 'u' && (unitOfHex? h1 h2 h3 h4).isSome then [c, d, h1, h2, h3, h4] :: tokens rest'
        else [c, d] :: tokens (h1 :: h2 :: h3 :: h4 :: rest')
      | short => [c, d] :: tokens short
    else [c] :: tokens (d :: rest)

/-- What a token stands for; nothing if a `u` has no digits. -/
def meaning? : Text → Option CodePoint
  | [c] => some c
  | [_, d] => if d = 'u' then none else some (named d)
  | [_, _, h1, h2, h3, h4] => unitOfHex? h1 h2 h3 h4
  | _ => none

section Arms

variable {c : CodePoint} {t : Text}

theorem tokens_cons (h : c ≠ '\\') (t : Text) : tokens (c :: t) = [c] :: tokens t := by
  cases t with
  | nil => rw [tokens, tokens]
  | cons d t =>
    rw [tokens.eq_def]
    simp [h]

/-- A `u` and its four digits. -/
theorem tokens_unit (h : BeginsWithUnit t) :
    tokens ('\\' :: 'u' :: t) = (CodePoint.ofChar '\\' :: CodePoint.ofChar 'u' :: t.take 4) ::
      tokens (t.drop 4) := by
  obtain ⟨h1, h2, h3, h4, rest, rfl⟩ := exists_of_beginsWithUnit h
  simp [tokens, isSome_unitOfHex?_iff.mpr h]

/-- Any other code point behind a backslash. -/
theorem tokens_pair (h : ¬ (c = 'u' ∧ BeginsWithUnit t)) :
    tokens ('\\' :: c :: t) = [CodePoint.ofChar '\\', c] :: tokens t := by
  match t with
  | [] | [_] | [_, _] | [_, _, _] => simp [tokens]
  | h1 :: h2 :: h3 :: h4 :: rest =>
    rw [← isSome_unitOfHex?_iff] at h
    simp only [tokens, if_true]
    rw [if_neg (by simpa using h)]

end Arms

/-- Induction on a text, token by token. -/
theorem token_induction {motive : Text → Prop} (nil : motive [])
    (point : ∀ (c : CodePoint) t, c ≠ '\\' → motive t → motive (c :: t))
    (unit : ∀ t, BeginsWithUnit t → motive (t.drop 4) → motive ('\\' :: 'u' :: t))
    (pair : ∀ (c : CodePoint) t, ¬ (c = 'u' ∧ BeginsWithUnit t) → motive t →
      motive ('\\' :: c :: t))
    (last : motive ['\\']) (t : Text) : motive t := by
  fun_induction tokens t with
  | case1 => exact nil
  | case2 c =>
    by_cases hc : c = CodePoint.ofChar '\\'
    · exact hc ▸ last
    · exact point c [] hc nil
  | case3 d h1 h2 h3 h4 rest hunit ih =>
    rw [Bool.and_eq_true, decide_eq_true_eq, isSome_unitOfHex?_iff] at hunit
    obtain ⟨rfl, hunit⟩ := hunit
    exact unit _ hunit ih
  | case4 d h1 h2 h3 h4 rest hunit ih =>
    rw [Bool.and_eq_true, decide_eq_true_eq, isSome_unitOfHex?_iff] at hunit
    exact pair d _ hunit ih
  | case5 d short hshort ih =>
    apply pair d short _ ih
    rintro ⟨-, hunit⟩
    obtain ⟨h1, h2, h3, h4, rest, rfl⟩ := exists_of_beginsWithUnit hunit
    exact hshort h1 h2 h3 h4 rest rfl
  | case6 c d rest hc ih => exact point c _ hc ih

/-- **The tokens of a text are what `replaceEscapes?` replaces**, each by what it stands for. -/
theorem replaceEscapes?_eq_mapM (t : Text) : replaceEscapes? t = (tokens t).mapM meaning? := by
  induction t using token_induction with
  | nil => rfl
  | point c t hc ih =>
    rw [replaceEscapes?_cons hc, tokens_cons hc, List.mapM_cons, ← ih]
    cases replaceEscapes? t <;> rfl
  | unit t h ih =>
    rw [tokens_unit h, List.mapM_cons, ← ih]
    obtain ⟨h1, h2, h3, h4, rest, rfl⟩ := exists_of_beginsWithUnit h
    show _ = unitOfHex? h1 h2 h3 h4 >>= fun unit => replaceEscapes? rest >>= fun units =>
      some (unit :: units)
    simp only [replaceEscapes?, if_true]
    cases unitOfHex? h1 h2 h3 h4 with
    | none => rfl
    | some unit => cases replaceEscapes? rest <;> rfl
  | pair c t h ih =>
    rw [tokens_pair h, List.mapM_cons, ← ih]
    by_cases hc : c = CodePoint.ofChar 'u'
    · -- a `u` without its digits
      subst hc
      have hbroken := (hasBrokenEscape_pair 'u' t).mpr (.inl ⟨rfl, fun hunit => h ⟨rfl, hunit⟩⟩)
      rw [(replaceEscapes?_eq_none_iff _).mpr hbroken]
      rfl
    · rw [replaceEscapes?_pair hc]
      have hmeaning : meaning? [CodePoint.ofChar '\\', c] = some (named c) := if_neg hc
      rw [hmeaning]
      cases replaceEscapes? t <;> rfl
  | last => rfl

/-- Nothing is lost between the tokens. -/
theorem flatten_tokens (t : Text) : (tokens t).flatten = t := by
  induction t using token_induction with
  | nil => rfl
  | point c t hc ih => rw [tokens_cons hc, List.flatten_cons, ih, List.singleton_append]
  | unit t h ih =>
    rw [tokens_unit h, List.flatten_cons, ih, List.cons_append, List.cons_append,
      List.take_append_drop]
  | pair c t h ih =>
    rw [tokens_pair h, List.flatten_cons, ih]
    rfl
  | last => rfl

/-! ## 2. Cuts between tokens -/

/-- Code points that begin no escape are tokens of their own. -/
theorem tokens_append_of_plain {gap : Text} (h : ∀ c ∈ gap, c ≠ '\\') (t : Text) :
    tokens (gap ++ t) = gap.map (fun c => [c]) ++ tokens t := by
  induction gap with
  | nil => rfl
  | cons c gap ih =>
    obtain ⟨hc, hgap⟩ := List.forall_mem_cons.mp h
    rw [List.cons_append, tokens_cons hc, ih hgap, List.map_cons, List.cons_append]

/-- What is behind a text has no part in a unit that begins on it, if it begins with no digit. -/
theorem beginsWithUnit_append {t after : Text} (h : ∀ c ∈ after.head?, c.hexDigit? = none) :
    BeginsWithUnit (t ++ after) ↔ BeginsWithUnit t := by
  by_cases hlength : 4 ≤ t.length
  · simp only [BeginsWithUnit, List.take_append_of_le_length hlength, List.length_append]
    have hle : 4 ≤ t.length + after.length := Nat.le_add_right_of_le hlength
    simp [hlength, hle]
  · refine iff_of_false ?_ fun hunit => hlength hunit.1
    rintro ⟨hle, hdigits⟩
    cases after with
    | nil => simp [hlength] at hle
    | cons c after =>
      -- the fourth code point at the latest is none of the digits
      have hmem : c ∈ (t ++ c :: after).take 4 := by
        rw [List.take_append, List.mem_append]
        right
        obtain ⟨n, hn⟩ : ∃ n, 4 - t.length = n + 1 := ⟨3 - t.length, by omega⟩
        rw [hn, List.take_succ_cons]
        exact List.mem_cons_self
      have hdigit := hdigits c hmem
      rw [h c rfl] at hdigit
      cases hdigit

namespace Complete

variable {t : Text}

/-- The digits of a unit leave no backslash over. -/
theorem of_unit (h : Complete t) (hunit : BeginsWithUnit t) : Complete (t.drop 4) := by
  obtain ⟨h1, h2, h3, h4, rest, rfl⟩ := exists_of_beginsWithUnit hunit
  obtain ⟨unit, hsome⟩ := Option.isSome_iff_exists.mp (isSome_unitOfHex?_iff.mpr hunit)
  exact Part.complete_of_unit hsome h

/-- **A cut behind a complete text is none within a token**, unless digits follow it. -/
theorem tokens_append {after : Text} (h : Complete t)
    (hafter : ∀ c ∈ after.head?, c.hexDigit? = none) :
    tokens (t ++ after) = tokens t ++ tokens after := by
  induction t using token_induction with
  | nil => rfl
  | point c t hc ih =>
    rw [List.cons_append, tokens_cons hc, tokens_cons hc, ih (h.tail hc), List.cons_append]
  | unit t hunit ih =>
    have hunit' := (beginsWithUnit_append (t := t) hafter).mpr hunit
    have hdrop : (t ++ after).drop 4 = t.drop 4 ++ after := List.drop_append_of_le_length hunit.1
    rw [List.cons_append, List.cons_append, tokens_unit hunit', hdrop, ih (h.of_pair.of_unit hunit),
      tokens_unit hunit, List.take_append_of_le_length hunit.1, List.cons_append]
  | pair c t hpair ih =>
    have hpair' : ¬ (c = 'u' ∧ BeginsWithUnit (t ++ after)) := by rwa [beginsWithUnit_append hafter]
    rw [List.cons_append, List.cons_append, tokens_pair hpair', ih h.of_pair, tokens_pair hpair,
      List.cons_append]
  | last => cases h.endsOpen_eq_false

/-- No token of it is a backslash alone. -/
theorem not_mem_tokens (h : Complete t) : [CodePoint.ofChar '\\'] ∉ tokens t := by
  induction t using token_induction with
  | nil => simp [tokens]
  | point c t hc ih =>
    rw [tokens_cons hc, List.mem_cons, not_or]
    refine ⟨?_, ih (h.tail hc)⟩
    simpa using hc.symm
  | unit t hunit ih =>
    rw [tokens_unit hunit, List.mem_cons, not_or]
    exact ⟨by simp, ih (h.of_pair.of_unit hunit)⟩
  | pair c t hpair ih =>
    rw [tokens_pair hpair, List.mem_cons, not_or]
    exact ⟨by simp, ih h.of_pair⟩
  | last => cases h.endsOpen_eq_false

end Complete

/-! ## 3. The scan for the end of a key -/

/-- Where the scan for the end of a key stops. At a backslash it goes on two code points further,
whether there are two or not. -/
def keyEnd : Text → Nat
  | [] => 0
  | [c] => if c = '\\' then 2 else if isSeparator c || isBlank c then 0 else 1
  | c :: d :: rest =>
    if c = '\\' then keyEnd rest + 2
    else if isSeparator c || isBlank c then 0
    else keyEnd (d :: rest) + 1

/-- **The key is what the scan has gone over**, and the rest what it has not. -/
theorem cutKey_eq (line : Text) :
    cutKey line = (line.take (keyEnd line), line.drop (keyEnd line)) := by
  fun_induction keyEnd line <;> simp_all [cutKey]

/-- Past the end the scan goes only if the last backslash has nothing behind it. -/
theorem Complete.keyEnd_le {line : Text} (h : Complete line) : keyEnd line ≤ line.length := by
  fun_induction keyEnd line with
  | case1 => exact Nat.le_refl 0
  | case2 => cases h.endsOpen_eq_false
  | case3 => exact Nat.zero_le 1
  | case4 => exact Nat.le_refl 1
  | case5 d rest ih => exact Nat.add_le_add_right (ih h.of_pair) 2
  | case6 => exact Nat.zero_le _
  | case7 c d rest hc _ ih => exact Nat.add_le_add_right (ih (h.tail hc)) 1

/-- The scan stops at the end or at a separator or blank. -/
theorem isSeparator_or_isBlank_of_keyEnd {line : Text} {c : CodePoint}
    (h : (line.drop (keyEnd line)).head? = some c) : isSeparator c = true ∨ isBlank c = true := by
  fun_induction keyEnd line <;> simp_all

example : keyEnd "key\\" = 5 := by decide

/-! ## 4. Logical lines -/

/-- Lines that are joined leave no backslash over: that of a line which is left open is dropped. -/
theorem complete_of_mem_joinLines {pending : Option Text} {raws : List Text} {line : Text}
    (hpending : Complete (pending.getD [])) (h : line ∈ joinLines pending raws) :
    Complete line := by
  -- what is pending is complete at every natural line
  fun_induction joinLines pending raws with
  | case1 => cases h
  | case2 => cases h
  | case3 pending =>
    rw [List.mem_singleton.mp h]
    exact hpending
  | case4 pending raw rest stripped hskip ih => exact ih .nil h
  | case5 pending raw rest stripped hskip hopen ih =>
    rw [isContinued_eq_endsOpen] at hopen
    apply ih _ h
    exact hpending.append (complete_dropLast hopen).1
  | case6 pending raw rest stripped hskip hopen ih =>
    rw [isContinued_eq_endsOpen, Bool.not_eq_true] at hopen
    rcases List.mem_cons.mp h with rfl | h
    · exact hpending.append (complete_of_endsOpen hopen)
    · exact ih .nil h

theorem complete_of_mem_logicalLines {text line : Text} (h : line ∈ logicalLines text) :
    Complete line := by
  apply complete_of_mem_joinLines _ h
  exact .nil

/-- Between key and value there are blanks and a separator at most. -/
theorem exists_gap (after : Text) :
    ∃ gap, after = gap ++ dropSeparator after ∧ ∀ c ∈ gap, isSeparator c = true ∨
    isBlank c = true := by
  have hblanks (t : Text) : ∀ c ∈ t.takeWhile isBlank, isSeparator c = true ∨ isBlank c = true := by
    intro c hc
    exact .inr (List.mem_takeWhile_imp hc)
  have hsplit := List.takeWhile_append_dropWhile (p := isBlank) (l := after)
  unfold dropSeparator
  split
  · next hnil =>
    rw [hnil] at hsplit
    exact ⟨_, hsplit.symm, hblanks after⟩
  · next c rest hcons =>
    rw [hcons] at hsplit
    split
    · next hsep =>
      -- the separator and the blanks on either side
      refine ⟨after.takeWhile isBlank ++ c :: rest.takeWhile isBlank, ?_, ?_⟩
      · rw [List.append_assoc, List.cons_append, List.takeWhile_append_dropWhile]
        exact hsplit.symm
      · intro d hd
        rcases List.mem_append.mp hd with hd | hd
        · exact hblanks after d hd
        rcases List.mem_cons.mp hd with rfl | hd
        · exact .inl hsep
        · exact hblanks rest d hd
    · exact ⟨_, hsplit.symm, hblanks after⟩

section Marks

variable {c : CodePoint} (h : isSeparator c = true ∨ isBlank c = true)
include h

theorem ne_backslash_of_separator_or_blank : c ≠ '\\' := by
  rintro rfl
  revert h
  decide

theorem hexDigit?_of_separator_or_blank : c.hexDigit? = none := by
  simp only [isSeparator, isBlank, Bool.or_eq_true, decide_eq_true_eq, or_assoc] at h
  rcases h with rfl | rfl | rfl | rfl | rfl <;> rfl

end Marks

/-- A line that is cut into key and value, and no escape on it with it. -/
structure CutBetweenTokens (line : Text) : Prop where
  /-- The last backslash is escaped. -/
  even : trailingBackslashes line % 2 = 0
  /-- The scan for the end of the key does not go past the line. -/
  within : keyEnd line ≤ line.length
  key : (splitLine line).1 = line.take (keyEnd line)
  /-- The key is made of the first tokens of the line and the value of the last. What is between
  them is no part of an escape. -/
  parts : ∃ gap, line.drop (keyEnd line) = gap ++ (splitLine line).2 ∧
    (∀ c ∈ gap, isSeparator c = true ∨ isBlank c = true) ∧
    tokens line = tokens (splitLine line).1 ++ gap.map (fun c => [c]) ++ tokens (splitLine line).2
  /-- Neither has a backslash without something behind it. -/
  whole : [CodePoint.ofChar '\\'] ∉ tokens (splitLine line).1 ∧
    [CodePoint.ofChar '\\'] ∉ tokens (splitLine line).2
  /-- What ends the key is a separator or a blank, and not escaped. -/
  unescaped : ∀ c ∈ (line.drop (keyEnd line)).head?,
    (isSeparator c = true ∨ isBlank c = true) ∧
    trailingBackslashes (line.take (keyEnd line)) % 2 = 0

theorem cutBetweenTokens_of_complete {line : Text} (h : Complete line) : CutBetweenTokens line := by
  obtain ⟨hkey, hvalue⟩ := complete_splitLine h
  have hfirst : (splitLine line).1 = line.take (keyEnd line) := congrArg Prod.fst (cutKey_eq line)
  have hsecond : (splitLine line).2 = dropSeparator (line.drop (keyEnd line)) := by
    rw [splitLine, cutKey_eq]
  obtain ⟨gap, hgap, hmarks⟩ := exists_gap (line.drop (keyEnd line))
  rw [← hsecond] at hgap
  have hline : line = (splitLine line).1 ++ (gap ++ (splitLine line).2) := by
    rw [hfirst, ← hgap, List.take_append_drop]
  have hstop : ∀ c ∈ (line.drop (keyEnd line)).head?, isSeparator c = true ∨ isBlank c = true := by
    intro c hc
    exact isSeparator_or_isBlank_of_keyEnd hc
  have htokens : tokens line =
      tokens (splitLine line).1 ++ gap.map (fun c => [c]) ++ tokens (splitLine line).2 := by
    have hdigit : ∀ c ∈ (gap ++ (splitLine line).2).head?, c.hexDigit? = none := by
      intro c hc
      rw [← hgap] at hc
      exact hexDigit?_of_separator_or_blank (hstop c hc)
    have hplain : ∀ c ∈ gap, c ≠ '\\' := by
      intro c hc
      exact ne_backslash_of_separator_or_blank (hmarks c hc)
    calc tokens line
        = tokens ((splitLine line).1 ++ (gap ++ (splitLine line).2)) := congrArg tokens hline
      _ = tokens (splitLine line).1 ++ tokens (gap ++ (splitLine line).2) :=
        hkey.tokens_append hdigit
      _ = _ := by rw [tokens_append_of_plain hplain, List.append_assoc]
  refine ⟨complete_iff_even.mp h, h.keyEnd_le, hfirst, ⟨gap, hgap, hmarks, htokens⟩,
    ⟨hkey.not_mem_tokens, hvalue.not_mem_tokens⟩, ?_⟩
  intro c hc
  rw [hfirst] at hkey
  exact ⟨hstop c hc, complete_iff_even.mp hkey⟩

/-- **No escape is ever cut.** A logical line ends in an even number of backslashes, whatever
natural lines it was joined from and whether the text ends on it or not. The scan for the end of its
key stops on the line, at a separator or blank that is not escaped or at its end. Key and value
begin and end where an escape does, so that no backslash is left over for the reader of either. -/
theorem logicalLines_cut_between_tokens {text line : Text} (h : line ∈ logicalLines text) :
    CutBetweenTokens line :=
  cutBetweenTokens_of_complete (complete_of_mem_logicalLines h)

/-- A line that three natural ones make, of which the last is left open at the end of the text. One
cut is behind three backslashes, and one within the escape of a unit. -/
theorem logicalLines_cut_between_tokens_continued :
    ("a\\\\\\=b\\u003d = c\\\\" : Text) ∈ logicalLines "a\\\\\\\n \\=b\\u00\\\r\n\t3d = c\\\\\\" ∧
      CutBetweenTokens "a\\\\\\=b\\u003d = c\\\\" := by
  have hline : ("a\\\\\\=b\\u003d = c\\\\" : Text) ∈
      logicalLines "a\\\\\\\n \\=b\\u00\\\r\n\t3d = c\\\\\\" := by
    decide +kernel
  exact ⟨hline, logicalLines_cut_between_tokens hline⟩

end IndexChain.Entries
