import IndexChain.Proofs.Entries.RoundTrip

/-!
# ASCII — what stands below the comment

A comment is written as it is, and may hold anything but line ends. Below it (`Entries.body`) there
is the date and one line for each entry, and **nothing on these lines but printable ASCII, whatever
the keys and values are** (`body_is_ascii_lines`): blanks and marks that mean something on a line
stand behind a backslash, and all that is no ASCII or not printable is spelled in hexadecimal
digits, unit by unit.

So it makes no difference what a reader takes for the end of a line, be it a CR, a form feed or a
separator of Unicode, and no code point of an entry can keep it from being stored. Without a comment
there is nothing else that could (`exists_toBytes?`).
-/

namespace IndexChain.Entries

/-- Lines, each of them ended by LF. -/
def terminated (lines : List Text) : Text := lines.flatMap fun line => line ++ ("\n" : Text)

/-- What stands below the comment. -/
def body (e : Entries) (now : Moment) : Text := terminated (dateLine now :: e.pairs.map entryLine)

/-! ## 1. Lines that end in LF -/

theorem terminated_append (lines lines' : List Text) :
    terminated (lines ++ lines') = terminated lines ++ terminated lines' :=
  List.flatMap_append

theorem mem_terminated {lines : List Text} {c : CodePoint} (h : c ∈ terminated lines) :
    c = '\n' ∨ ∃ line ∈ lines, c ∈ line := by
  obtain ⟨line, hline, hc⟩ := List.mem_flatMap.mp h
  rcases List.mem_append.mp hc with hc | hc
  · exact .inr ⟨line, hline, hc⟩
  · exact .inl (List.mem_singleton.mp hc)

/-- There are as many line ends as lines. -/
theorem count_terminated {lines : List Text} (h : ∀ line ∈ lines, line.IsOneLine) :
    (terminated lines).count (CodePoint.ofChar '\n') = lines.length := by
  induction lines with
  | nil => rfl
  | cons line lines ih =>
    obtain ⟨hline, hlines⟩ := List.forall_mem_cons.mp h
    have hnone : line.count (CodePoint.ofChar '\n') = 0 := List.count_eq_zero.mpr fun hc =>
      (hline _ hc).1 rfl
    have hend : List.count (CodePoint.ofChar '\n') ("\n" : Text) = 1 := rfl
    rw [terminated, List.flatMap_cons, List.count_append, List.count_append, hnone,
      hend, ← terminated, ih hlines, List.length_cons]
    omega

/-! ## 2. The lines of entries -/

theorem isPrintable_dateLine (now : Moment) : ∀ c ∈ dateLine now, IsPrintable c := by
  intro c hc
  rcases List.mem_append.mp hc with hc | hc
  · exact (by decide : ∀ c ∈ ("#" : Text), IsPrintable c) c hc
  · exact Text.isPrintable_dateText now c hc

/-- The lines below the comment are printable. -/
theorem isPrintable_of_mem_lines {e : Entries} {now : Moment} {line : Text}
    (h : line ∈ dateLine now :: e.pairs.map entryLine) : ∀ c ∈ line, IsPrintable c := by
  rcases List.mem_cons.mp h with rfl | h
  · exact isPrintable_dateLine now
  · obtain ⟨p, -, rfl⟩ := List.mem_map.mp h
    exact isPrintable_entryLine p

theorem toText_eq_append_body (e : Entries) (comment : Option Text) (now : Moment) :
    e.toText comment now = terminated (commentLines comment) ++ e.body now :=
  terminated_append _ _

theorem commentLines_nil {comment : Option Text} (h : comment.getD [] = []) :
    commentLines comment = [] := by
  rw [commentLines, h]

/-- Without a comment the body is all there is, and it is stored as it stands. -/
theorem toBytes?_of_no_comment (e : Entries) (now : Moment) {comment : Option Text}
    (h : comment.getD [] = []) :
    ∃ stored, e.toBytes? comment now = some stored ∧ Text.ofLatin1 stored = e.body now := by
  have hnone : ∀ c ∈ comment.getD [], c.val < 256 := by simp [h]
  obtain ⟨stored, hstored⟩ := exists_toBytes? e now hnone
  refine ⟨stored, hstored, ?_⟩
  rw [Text.ofLatin1_of_toLatin1? hstored, toText_eq_append_body, commentLines_nil h]
  rfl

/-- **What is written of entries below the comment is lines of printable ASCII**, each ended by LF:
the date, and one for each entry. They are there whatever the comment is, and without a comment they
are all that is written, so that nothing keeps the entries from being stored. -/
theorem body_is_ascii_lines (e : Entries) (now : Moment) :
    (∀ comment, e.toText comment now = terminated (commentLines comment) ++ e.body now) ∧
      (∀ c ∈ e.body now, c.val < 0x80 ∧ c ≠ '\r' ∧ (c = '\n' ∨ IsPrintable c)) ∧
      (e.body now).count (CodePoint.ofChar '\n') = e.pairs.length + 1 ∧
      Text.naturalLines (e.body now) = dateLine now :: e.pairs.map entryLine ++ [[]] ∧
      (∃ stored, e.toBytes? none now = some stored ∧ Text.ofLatin1 stored = e.body now) ∧
      ∃ stored, e.toBytes? (some []) now = some stored ∧ Text.ofLatin1 stored = e.body now := by
  have hone : ∀ line ∈ dateLine now :: e.pairs.map entryLine, line.IsOneLine := by
    intro line hline
    exact Text.isOneLine_of_isPrintable (isPrintable_of_mem_lines hline)
  have hascii : ∀ c ∈ e.body now, c.val < 0x80 ∧ c ≠ '\r' ∧ (c = '\n' ∨ IsPrintable c) := by
    intro c hc
    rcases mem_terminated hc with rfl | ⟨line, hline, hc⟩
    · exact ⟨by decide, by decide, .inl rfl⟩
    · have hprint := isPrintable_of_mem_lines hline c hc
      have hval := hprint.2
      exact ⟨by omega, (hone line hline c hc).2, .inr hprint⟩
  have hcount := count_terminated hone
  rw [List.length_cons, List.length_map] at hcount
  exact ⟨fun comment => toText_eq_append_body e comment now, hascii, hcount,
    Text.naturalLines_terminated hone, toBytes?_of_no_comment e now rfl,
    toBytes?_of_no_comment e now rfl⟩

end IndexChain.Entries
