import IndexChain.Entries.Written
import IndexChain.Proofs.Entries.Lines

/-!
# Line terminators — which one it is makes no difference

LF, CR and CR LF end a natural line alike. All that entries know of a text are its natural lines
(`ofText_congr`), so **a text that is written with other terminators throughout has the same
entries, or is refused for the same cause** (`ofText_withBreaks`): within continued lines, behind
backslashes and at the end of the text as well.

Where a text is put together from two, a CR at the end of the first and an LF at the beginning of
the second would make one terminator of two. If the first does not end in CR, the lines of both are
the lines of the whole (`Text.naturalLines_append`).
-/

namespace IndexChain

namespace Text

theorem unifyBreaks_cons {c : CodePoint} (h : c ≠ '\r') (rest : Text) :
    unifyBreaks (c :: rest) = c :: unifyBreaks rest := by
  rw [unifyBreaks.eq_def]
  simp [h]

/-- A CR that no LF follows is a terminator of its own. -/
theorem unifyBreaks_cr {rest : Text} (h : rest.head? ≠ some (CodePoint.ofChar '\n')) :
    unifyBreaks (CodePoint.ofChar '\r' :: rest) = CodePoint.ofChar '\n' :: unifyBreaks rest := by
  cases rest with
  | nil => rfl
  | cons d rest =>
    have hd : d ≠ '\n' := by
      intro hlf
      apply h
      rw [hlf]
      rfl
    simp [unifyBreaks, hd]

/-! ## 1. A terminator between two texts -/

/-- Only a CR and an LF belong together. -/
theorem unifyBreaks_append {t rest : Text}
    (h : t.getLast? = some (CodePoint.ofChar '\r') → rest.head? ≠ some (CodePoint.ofChar '\n')) :
    unifyBreaks (t ++ rest) = unifyBreaks t ++ unifyBreaks rest := by
  have hlast {c : CodePoint} {t : Text} (hcr : t.getLast? = some (CodePoint.ofChar '\r')) :
      (c :: t).getLast? = some (CodePoint.ofChar '\r') := by
    rw [List.getLast?_cons, hcr]
    rfl
  fun_induction unifyBreaks t with
  | case1 => rfl
  | case2 => exact unifyBreaks_cr (h rfl)
  | case3 t ih => simp [unifyBreaks, ih fun hcr => h (hlast (hlast hcr))]
  | case4 d t hd ih => simp [unifyBreaks, hd, ← ih fun hcr => h (hlast hcr)]
  | case5 c t hc ih =>
    rw [List.cons_append, unifyBreaks_cons hc, ih fun hcr => h (hlast hcr), List.cons_append]

theorem naturalLines_append {t : Text} (h : t.getLast? ≠ some (CodePoint.ofChar '\r'))
    (rest : Text) : naturalLines (t ++ "\n" ++ rest) = naturalLines t ++ naturalLines rest := by
  have hbreak : ("\n" : Text) = [CodePoint.ofChar '\n'] := rfl
  rw [naturalLines, hbreak, List.append_assoc, unifyBreaks_append fun hcr => absurd hcr h,
    List.singleton_append, unifyBreaks_cons (by decide), splitAt_append]
  rfl

/-- Behind a CR at the end there is an empty line, and an LF more makes no difference. -/
theorem naturalLines_append_cr (t : Text) :
    naturalLines (t ++ "\r") = naturalLines t ++ [[]] ∧
    naturalLines (t ++ "\r\n") = naturalLines t ++ [[]] := by
  have hcr : unifyBreaks (t ++ "\r") = unifyBreaks t ++ [CodePoint.ofChar '\n'] := by
    apply unifyBreaks_append
    intro _
    decide
  have hcrlf : unifyBreaks (t ++ "\r\n") = unifyBreaks t ++ [CodePoint.ofChar '\n'] := by
    apply unifyBreaks_append
    intro _
    decide
  unfold naturalLines
  rw [hcr, hcrlf, splitAt_append]
  exact ⟨rfl, rfl⟩

/-! ## 2. Other terminators -/

/-- The text with another terminator in place of every LF. -/
def withBreaks (t terminator : Text) : Text :=
  t.flatMap fun c => if c = CodePoint.ofChar '\n' then terminator else [c]

theorem withBreaks_lf (t terminator : Text) :
    withBreaks (CodePoint.ofChar '\n' :: t) terminator = terminator ++ t.withBreaks terminator := by
  simp [withBreaks]

theorem withBreaks_cons {c : CodePoint} (h : c ≠ '\n') (t terminator : Text) :
    withBreaks (c :: t) terminator = c :: t.withBreaks terminator := by
  simp [withBreaks, h]

/-- No LF is left at the beginning, where it could belong to a CR. -/
theorem head?_withBreaks {terminator : Text} (h : terminator.head? = some (CodePoint.ofChar '\r'))
    (t : Text) : (t.withBreaks terminator).head? ≠ some (CodePoint.ofChar '\n') := by
  intro hlf
  cases t with
  | nil => cases hlf
  | cons c t =>
    by_cases hc : c = CodePoint.ofChar '\n'
    · subst hc
      rw [withBreaks_lf, List.head?_append, h] at hlf
      cases hlf
    · rw [withBreaks_cons hc] at hlf
      exact hc (Option.some.inj hlf)

/-- **What ends a line as an LF does can stand in its place.** -/
theorem unifyBreaks_withBreaks {terminator t : Text}
    (hhead : terminator.head? = some (CodePoint.ofChar '\r'))
    (hterminator : ∀ rest : Text, rest.head? ≠ some (CodePoint.ofChar '\n') →
      unifyBreaks (terminator ++ rest) = CodePoint.ofChar '\n' :: unifyBreaks rest)
    (h : CodePoint.ofChar '\r' ∉ t) : unifyBreaks (t.withBreaks terminator) = t := by
  induction t with
  | nil => rfl
  | cons c t ih =>
    rw [List.mem_cons, not_or] at h
    by_cases hc : c = CodePoint.ofChar '\n'
    · subst hc
      rw [withBreaks_lf, hterminator _ (head?_withBreaks hhead t), ih h.2]
    · rw [withBreaks_cons hc, unifyBreaks_cons fun hcr => h.1 hcr.symm, ih h.2]

theorem naturalLines_withBreaks {t : Text} (h : CodePoint.ofChar '\r' ∉ t) :
    naturalLines (t.withBreaks "\r\n") = naturalLines t ∧
    naturalLines (t.withBreaks "\r") = naturalLines t := by
  have hcrlf : unifyBreaks (t.withBreaks "\r\n") = t := by
    apply unifyBreaks_withBreaks rfl _ h
    intro rest _
    rfl
  have hcr : unifyBreaks (t.withBreaks "\r") = t := by
    apply unifyBreaks_withBreaks rfl _ h
    intro rest hrest
    exact unifyBreaks_cr hrest
  unfold naturalLines
  rw [hcrlf, hcr, unifyBreaks_of_not_mem h]
  exact ⟨rfl, rfl⟩

end Text

namespace Entries

/-- A text is read by its natural lines. -/
theorem ofText_congr {t u : Text} (h : t.naturalLines = u.naturalLines) : ofText t = ofText u := by
  rw [ofText, ofText, logicalLines, logicalLines, h]

/-- **Line terminators are interchangeable**: CR LF in place of every LF, or CR in place of every
LF, leaves the entries of a text as they are, with their order, and leaves the cause for which it is
refused. -/
theorem ofText_withBreaks {t : Text} (h : CodePoint.ofChar '\r' ∉ t) :
    ofText (t.withBreaks "\r\n") = ofText t ∧ ofText (t.withBreaks "\r") = ofText t := by
  obtain ⟨hcrlf, hcr⟩ := Text.naturalLines_withBreaks h
  exact ⟨ofText_congr hcrlf, ofText_congr hcr⟩

/-- Backslashes in front of a terminator in odd and in even number, a blank line and a comment
within a continued line, and a terminator at the end. -/
def broken : Text := "a\\\\\\\n  =1\\\n\n#c\nb=\\\n# 2\\\\\n\n"

theorem ofText_withBreaks_broken :
    CodePoint.ofChar '\r' ∉ broken ∧ broken.withBreaks "\r" ≠ broken ∧
      ofText (broken.withBreaks "\r\n") = ofText broken ∧
      ofText (broken.withBreaks "\r") = ofText broken ∧
      (ofText broken).map (·.pairs) = .ok [("a\\", "1"), ("b", "# 2\\")] := by
  have hcr : CodePoint.ofChar '\r' ∉ broken := by decide +kernel
  have hread : (ofText broken).map (·.pairs) = .ok [("a\\", "1"), ("b", "# 2\\")] := by
    decide +kernel
  obtain ⟨hcrlf, hcr'⟩ := ofText_withBreaks hcr
  exact ⟨hcr, by decide +kernel, hcrlf, hcr', hread⟩

end Entries

end IndexChain
