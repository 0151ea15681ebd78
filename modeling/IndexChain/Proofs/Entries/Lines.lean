import Mathlib.Data.List.TakeWhile
import IndexChain.Entries.Lines
import IndexChain.Proofs.Entries.Escape
import IndexChain.Proofs.Text

/-!
# Lines of entries — cutting a text and finding the entries again

Three cuts lead from a text to its entries: into natural lines, from these to logical lines, and of
a logical line into key and value. Each is undone by what writes the lines, and none of them invents
a code point (`mem_of_mem_logicalLines`, `mem_of_mem_splitLine`).

## Where a line is continued

`isContinued` counts the backslashes at the end of a line. Writers and the other readers do not
count: they go from the left and take a backslash together with what follows it.
**`isContinued_eq_endsOpen` says that the two agree**: a line is continued exactly if a reader from
the left is left with a backslash that has nothing behind it. Every statement about continuation
below goes through it, so none of them counts backslashes.
-/

namespace IndexChain

namespace Text

/-! ## 1. Natural lines -/

theorem unifyBreaks_of_not_mem {t : Text} (h : CodePoint.ofChar '\r' ∉ t) : unifyBreaks t = t := by
  induction t with
  | nil => rfl
  | cons c t ih =>
    rw [unifyBreaks.eq_def]
    simp only
    have hc : c ≠ CodePoint.ofChar '\r' := fun e => h (e ▸ List.mem_cons_self)
    rw [if_neg hc, ih fun hm => h (List.mem_cons_of_mem c hm)]

/-- Making line ends equal only puts LF where CR was. -/
theorem mem_of_mem_unifyBreaks {t : Text} {c : CodePoint} (h : c ∈ unifyBreaks t) :
    c ≠ '\r' ∧ (c = '\n' ∨ c ∈ t) := by
  fun_induction unifyBreaks t with
  | case1 => simp at h
  | case2 =>
    simp only [List.mem_singleton] at h
    exact ⟨h ▸ by decide, .inl h⟩
  | case3 rest ih =>
    rcases List.mem_cons.mp h with h | h
    · exact ⟨h ▸ by decide, .inl h⟩
    · obtain ⟨hne, rfl | hm⟩ := ih h
      · exact ⟨hne, .inl rfl⟩
      · exact ⟨hne, .inr (by simp [hm])⟩
  | case4 d rest hd ih =>
    rcases List.mem_cons.mp h with h | h
    · exact ⟨h ▸ by decide, .inl h⟩
    · obtain ⟨hne, rfl | hm⟩ := ih h
      · exact ⟨hne, .inl rfl⟩
      · exact ⟨hne, .inr (List.mem_cons_of_mem _ hm)⟩
  | case5 d rest hd ih =>
    rcases List.mem_cons.mp h with rfl | h
    · exact ⟨hd, .inr List.mem_cons_self⟩
    · obtain ⟨hne, rfl | hm⟩ := ih h
      · exact ⟨hne, .inl rfl⟩
      · exact ⟨hne, .inr (List.mem_cons_of_mem _ hm)⟩

theorem mem_unifyBreaks {t : Text} {c : CodePoint} (h : c ∈ t) (hne : c ≠ '\r') :
    c ∈ unifyBreaks t := by
  fun_induction unifyBreaks t with
  | case1 => exact h
  | case2 => exact absurd (List.mem_singleton.mp h) hne
  | case3 rest ih =>
    -- of CR LF the LF is left
    rcases List.mem_cons.mp ((List.mem_cons.mp h).resolve_left hne) with rfl | h
    · exact List.mem_cons_self
    · exact List.mem_cons_of_mem _ (ih h)
  | case4 d rest hd ih => exact List.mem_cons_of_mem _ (ih ((List.mem_cons.mp h).resolve_left hne))
  | case5 d rest hd ih =>
    rcases List.mem_cons.mp h with rfl | h
    · exact List.mem_cons_self
    · exact List.mem_cons_of_mem _ (ih h)

/-- Every code point but those that end lines stands on a line. -/
theorem exists_mem_naturalLines {t : Text} {c : CodePoint} (h : c ∈ t) (hcr : c ≠ '\r')
    (hlf : c ≠ '\n') : ∃ line ∈ naturalLines t, c ∈ line :=
  exists_mem_splitAt (mem_unifyBreaks h hcr) hlf

/-- A text without line terminators: a piece of one line. -/
def IsOneLine (t : Text) : Prop := ∀ c ∈ t, c ≠ '\n' ∧ c ≠ '\r'

theorem mem_of_mem_naturalLines {t line : Text} (h : line ∈ naturalLines t) :
    ∀ c ∈ line, c ∈ t := by
  intro c hc
  obtain ⟨hm, hne⟩ := mem_of_mem_splitAt h c hc
  exact (mem_of_mem_unifyBreaks hm).2.resolve_left hne

theorem isOneLine_of_mem_naturalLines {t line : Text} (h : line ∈ naturalLines t) :
    line.IsOneLine := by
  intro c hc
  obtain ⟨hm, hne⟩ := mem_of_mem_splitAt h c hc
  exact ⟨hne, (mem_of_mem_unifyBreaks hm).1⟩

/-- **Lines ended by LF are the natural lines of the text they make**, with an empty one behind
    them. -/
theorem naturalLines_terminated {lines : List Text} (h : ∀ line ∈ lines, line.IsOneLine) :
    naturalLines (lines.flatMap fun line => line ++ ("\n" : Text)) = lines ++ [[]] := by
  have hbreak : ("\n" : Text) = [CodePoint.ofChar '\n'] := rfl
  rw [hbreak, naturalLines, unifyBreaks_of_not_mem, splitAt_terminated]
  · exact fun line hl hm => (h line hl _ hm).1 rfl
  · intro hm
    obtain ⟨line, hl, hm⟩ := List.mem_flatMap.mp hm
    rcases List.mem_append.mp hm with hm | hm
    · exact (h line hl _ hm).2 rfl
    · simp only [List.mem_singleton] at hm
      exact absurd hm (by decide)

end Text

namespace Entries

/-! ## 2. Continued lines -/

/-- Whether a reader from the left ends with a backslash that has nothing behind it. -/
def endsOpen : Text → Bool
  | [] => false
  | [c] => c = '\\'
  | c :: d :: rest => if c = '\\' then endsOpen rest else endsOpen (d :: rest)

theorem trailingBackslashes_eq_length {t : Text} (h : ∀ d ∈ t, d = CodePoint.ofChar '\\') :
    trailingBackslashes t = t.length := by
  rw [trailingBackslashes, List.takeWhile_eq_self_iff.mpr (by simpa using h), List.length_reverse]

/-- A code point at the beginning matters only if nothing but backslashes follows it. -/
theorem trailingBackslashes_cons (c : CodePoint) (t : Text) :
    trailingBackslashes (c :: t) =
      if ∀ d ∈ t, d = CodePoint.ofChar '\\' then
        t.length + (if c = CodePoint.ofChar '\\' then 1 else 0)
      else trailingBackslashes t := by
  simp only [trailingBackslashes, List.reverse_cons, List.takeWhile_append]
  by_cases hall : ∀ d ∈ t, d = CodePoint.ofChar '\\'
  · -- the run at the end reaches up to `c`
    have hself : t.reverse.takeWhile (· = CodePoint.ofChar '\\') = t.reverse := by
      rw [List.takeWhile_eq_self_iff]
      simpa using hall
    rw [if_pos hall, hself, if_pos rfl]
    by_cases hc : c = CodePoint.ofChar '\\' <;> simp [List.takeWhile, hc]
  · have hne : (t.reverse.takeWhile (· = CodePoint.ofChar '\\')).length ≠ t.reverse.length := by
      intro hlen
      apply hall
      have hself := (List.takeWhile_sublist _).eq_of_length hlen
      rw [List.takeWhile_eq_self_iff] at hself
      simpa using hself
    rw [if_neg hall, if_neg hne]

/-- **Counting at the end and pairing from the left agree** on which lines are continued. -/
theorem isContinued_eq_endsOpen (line : Text) : isContinued line = endsOpen line := by
  -- two code points more or less at the beginning do not change whether the count is odd
  have hstep {c d : CodePoint} {rest : Text} (hc : c = CodePoint.ofChar '\\') :
      trailingBackslashes (c :: d :: rest) % 2 = trailingBackslashes rest % 2 := by
    subst hc
    rw [trailingBackslashes_cons, trailingBackslashes_cons]
    by_cases hall : ∀ e ∈ rest, e = CodePoint.ofChar '\\'
    · by_cases hd : d = CodePoint.ofChar '\\'
      · rw [if_pos (by simpa [hd] using hall), trailingBackslashes_eq_length hall]
        simp only [List.length_cons, if_true]
        omega
      · rw [if_neg (by simp [hd]), if_pos hall, trailingBackslashes_eq_length hall]
        simp [hd]
    · rw [if_neg (fun h => hall fun e he => h e (List.mem_cons_of_mem d he)), if_neg hall]
  fun_induction endsOpen line with
  | case1 => rfl
  | case2 c => by_cases hc : c = CodePoint.ofChar '\\' <;>
    simp [isContinued, trailingBackslashes, hc]
  | case3 d rest ih => rw [← ih, isContinued, isContinued, hstep rfl]
  | case4 c d rest hc ih =>
    -- `c` is no backslash, so it ends any run that reaches it
    rw [← ih, isContinued, isContinued, trailingBackslashes_cons]
    by_cases hall : ∀ e ∈ d :: rest, e = CodePoint.ofChar '\\'
    · rw [if_pos hall, if_neg hc, trailingBackslashes_eq_length hall, Nat.add_zero]
    · rw [if_neg hall]

theorem endsOpen_cons {c : CodePoint} (h : c ≠ '\\') (t : Text) :
    endsOpen (c :: t) = endsOpen t := by
  cases t with
  | nil => simp [endsOpen, h]
  | cons d t => simp [endsOpen, h]

/-- What stands behind an escaped text decides whether the whole is continued. -/
theorem Escaped.endsOpen_append {p : CodePoint → Prop} {t : Text} (h : Escaped p t) (rest : Text) :
    endsOpen (t ++ rest) = endsOpen rest := by
  induction h with
  | nil => rfl
  | point hc _ _ ih => rw [List.cons_append, endsOpen_cons hc, ih]
  | pair _ _ ih => rw [List.cons_append, List.cons_append, endsOpen, if_pos rfl, ih]

/-! ## 3. Keys and values -/

theorem cutKey_cons {c : CodePoint} (hback : c ≠ '\\') (hsep : isSeparator c = false)
    (hblank : isBlank c = false) (t : Text) :
    cutKey (c :: t) = (c :: (cutKey t).1, (cutKey t).2) := by
  cases t with
  | nil => simp [cutKey, hback, hsep, hblank]
  | cons d t => simp [cutKey, hback, hsep, hblank]

theorem cutKey_separator {c : CodePoint} (hback : c ≠ '\\') (h : isSeparator c = true) (t : Text) :
    cutKey (c :: t) = ([], c :: t) := by
  cases t with
  | nil => simp [cutKey, hback, h]
  | cons d t => simp [cutKey, hback, h]

theorem IsInert.isSeparator_eq_false {blank : Bool} {c : CodePoint} (h : IsInert blank c) :
    isSeparator c = false := by
  simp [isSeparator, h.2.1, h.2.2.1]

theorem not_isBlank_of_isPrintable {c : CodePoint} (h : IsPrintable c) (hspace : c ≠ ' ') :
    isBlank c = false := by
  have htab : c ≠ '\t' := fun e => absurd (e ▸ h) (by decide)
  have hfeed : c ≠ '\x0c' := fun e => absurd (e ▸ h) (by decide)
  simp [isBlank, hspace, htab, hfeed]

/-- **A written key is never cut short**: its end is looked for behind it. -/
theorem Escaped.cutKey_append {key : Text} (h : Escaped (IsInert true) key) (rest : Text) :
    cutKey (key ++ rest) = (key ++ (cutKey rest).1, (cutKey rest).2) := by
  induction h with
  | nil => rfl
  | point hc hp _ ih =>
    have hblank := not_isBlank_of_isPrintable hp.1 (hp.2.2.2.2.2 rfl)
    rw [List.cons_append, cutKey_cons hc hp.isSeparator_eq_false hblank, ih]
    rfl
  | pair _ _ ih => simp [cutKey, ih]

/-- A written key, and the escape of a code point that begins a value, begins with no blank that
    would be skipped and no mark of a comment. -/
theorem Escaped.head_stays {c : CodePoint} {t : Text} (h : Escaped (IsInert true) (c :: t)) :
    isBlank c = false ∧ c ≠ '#' ∧ c ≠ '!' := by
  cases h with
  | point _ hp _ =>
    exact ⟨not_isBlank_of_isPrintable hp.1 (hp.2.2.2.2.2 rfl), hp.2.2.2.1, hp.2.2.2.2.1⟩
  | pair _ _ => exact ⟨by decide, by decide, by decide⟩

theorem dropWhile_isBlank_escapeValue (value : Text) :
    (escapeValue value).dropWhile isBlank = escapeValue value := by
  cases value with
  | nil => rfl
  | cons c rest =>
    obtain ⟨d, tail, hd⟩ := List.exists_cons_of_ne_nil (escapePoint_ne_nil true c)
    have hhead := (hd ▸ escaped_escapePoint true c).head_stays
    simp [escapeValue, hd, hhead.1]

/-- **The line of an entry is split into what was written for its key and for its value.** -/
theorem splitLine_escaped (key value : Text) :
    splitLine (escapeKey key ++ "=" ++ escapeValue value) = (escapeKey key, escapeValue value) := by
  have hmark : ("=" : Text) = [CodePoint.ofChar '='] := rfl
  have hcut : cutKey ([CodePoint.ofChar '='] ++ escapeValue value) =
      ([], [CodePoint.ofChar '='] ++ escapeValue value) :=
    cutKey_separator (by decide) (by decide) (escapeValue value)
  have hdrop : dropSeparator ([CodePoint.ofChar '='] ++ escapeValue value) = escapeValue value := by
    rw [List.singleton_append, dropSeparator, List.dropWhile_cons_of_neg (by decide)]
    simp only
    rw [if_pos (by decide), dropWhile_isBlank_escapeValue]
  rw [splitLine, hmark, List.append_assoc, (escaped_escapeKey key).cutKey_append, hcut,
    List.append_nil]
  simp only [hdrop]

theorem cutKey_append_eq (line : Text) : (cutKey line).1 ++ (cutKey line).2 = line := by
  fun_induction cutKey line with
  | case1 | case2 | case3 | case4 => rfl
  | case5 d rest key after hcut ih =>
    rw [hcut] at ih
    exact congrArg (fun t => _ :: d :: t) ih
  | case6 => rfl
  | case7 c d rest _ _ key after hcut ih =>
    rw [hcut] at ih
    exact congrArg (c :: ·) ih

/-- Key and value are parts of the line. -/
theorem mem_of_mem_splitLine {line : Text} {c : CodePoint}
    (h : c ∈ (splitLine line).1 ∨ c ∈ (splitLine line).2) : c ∈ line := by
  have hvalue (after : Text) (hc : c ∈ dropSeparator after) : c ∈ after := by
    have hsub := (List.dropWhile_sublist isBlank (l := after)).subset
    unfold dropSeparator at hc
    split at hc
    · simp at hc
    · next d rest hd =>
      split at hc
      · exact hsub (hd ▸ List.mem_cons_of_mem d ((List.dropWhile_sublist isBlank).subset hc))
      · exact hsub (hd ▸ hc)
  rw [← cutKey_append_eq line, List.mem_append]
  rcases h with h | h
  · exact .inl h
  · exact .inr (hvalue _ h)

/-! ## 4. Logical lines -/

/-- Blank lines and comments leave no trace. -/
theorem joinLines_skipped {raw : Text} (h : isSkipped (raw.dropWhile isBlank) = true)
    (rest : List Text) : joinLines none (raw :: rest) = joinLines none rest := by
  simp [joinLines, h]

/-- A line that is neither skipped nor continued is a logical line. -/
theorem joinLines_line {raw : Text} (hskip : isSkipped (raw.dropWhile isBlank) = false)
    (hopen : endsOpen (raw.dropWhile isBlank) = false) (rest : List Text) :
    joinLines none (raw :: rest) = raw.dropWhile isBlank :: joinLines none rest := by
  simp [joinLines, hskip, isContinued_eq_endsOpen, hopen]

theorem mem_of_mem_joinLines {pending : Option Text} {raws : List Text} {line : Text}
    {c : CodePoint} (h : line ∈ joinLines pending raws) (hc : c ∈ line) :
    c ∈ pending.getD [] ∨ ∃ raw ∈ raws, c ∈ raw := by
  have hdrop {raw : Text} : c ∈ raw.dropWhile isBlank → c ∈ raw :=
    fun hm => (List.dropWhile_sublist isBlank).subset hm
  fun_induction joinLines pending raws with
  | case1 => simp at h
  | case2 => simp at h
  | case3 pending =>
    simp only [List.mem_singleton] at h
    exact .inl (h ▸ hc)
  | case4 pending raw rest t hskip ih =>
    rcases ih h with hm | ⟨raw', hraw, hm⟩
    · simp at hm
    · exact .inr ⟨raw', List.mem_cons_of_mem raw hraw, hm⟩
  | case5 pending raw rest t _ _ ih =>
    -- the line is continued, and what it is continued by comes later
    rcases ih h with hm | ⟨raw', hraw, hm⟩
    · rcases List.mem_append.mp hm with hm | hm
      · exact .inl hm
      · exact .inr ⟨raw, List.mem_cons_self, hdrop ((List.dropLast_sublist _).subset hm)⟩
    · exact .inr ⟨raw', List.mem_cons_of_mem raw hraw, hm⟩
  | case6 pending raw rest t _ _ ih =>
    -- the line ends a logical line
    rcases List.mem_cons.mp h with rfl | h
    · rcases List.mem_append.mp hc with hm | hm
      · exact .inl hm
      · exact .inr ⟨raw, List.mem_cons_self, hdrop hm⟩
    · rcases ih h with hm | ⟨raw', hraw, hm⟩
      · simp at hm
      · exact .inr ⟨raw', List.mem_cons_of_mem raw hraw, hm⟩

/-- Logical lines hold nothing that the text does not hold. -/
theorem mem_of_mem_logicalLines {text line : Text} (h : line ∈ logicalLines text) :
    ∀ c ∈ line, c ∈ text := by
  intro c hc
  rcases mem_of_mem_joinLines h hc with hc | ⟨raw, hraw, hc⟩
  · simp at hc
  · exact Text.mem_of_mem_naturalLines hraw c hc

end Entries

end IndexChain
