import IndexChain.Proofs.Entries.Flaws
import IndexChain.Proofs.Entries.Seams

/-!
# Blank lines — where an entry without a key comes from

A blank line is skipped, but one that continues another line is not, whatever is left of that line.
So **a line of blanks and one backslash leaves nothing to be continued, and the blank line behind it
makes a logical line of nothing** (`nil_mem_logicalLines_iff`). Such a line is no comment and no
blank one any more: it is an entry, of an empty value under an empty key.

At the end of a text nothing more comes, and what is left open counts only if it is something. So an
LF more at the end makes no difference, except behind lines that are left open with nothing on them
(`ofText_append_lf`).

Apart from these **an entry has an empty key only if its line begins with a separator**
(`ofText_append_lf_eq_iff`). This is since logical lines do not begin with blanks
(`isFlush_of_mem_logicalLines`), and since unescaping leaves something of whatever is there
(`unescape_eq_nil_iff`).
-/

namespace IndexChain

theorem Text.eq_nil_of_pairHalves? {t : Text} (h : pairHalves? t = some []) : t = [] := by
  fun_cases pairHalves? t <;> simp_all [pairHalves?]

namespace Entries

/-! ## 1. Empty keys -/

theorem unescape_eq_nil_iff {t : Text} : unescape t = .ok [] ↔ t = [] := by
  constructor
  · intro h
    unfold unescape at h
    split at h
    · exact Except.ok.inj h
    · split at h
      · cases h
      · next units hunits =>
        split at h
        · cases h
        · next hpaired =>
          rw [Except.ok.inj h] at hpaired
          rw [Text.eq_nil_of_pairHalves? hpaired, replaceEscapes?_eq_some_iff] at hunits
          cases hunits
          rfl
  · rintro rfl
    rfl

/-- No blank stands at the beginning. -/
def IsFlush (t : Text) : Prop := ∀ c ∈ t.head?, isBlank c = false

theorem isFlush_nil : IsFlush [] := by
  intro c hc
  cases hc

theorem IsFlush.append {t u : Text} (ht : IsFlush t) (hu : IsFlush u) : IsFlush (t ++ u) := by
  cases t with
  | nil => exact hu
  | cons c t => exact ht

theorem IsFlush.dropLast {t : Text} (h : IsFlush t) : IsFlush t.dropLast := by
  cases t with
  | nil => exact h
  | cons c t =>
    cases t with
    | nil => exact isFlush_nil
    | cons d t => exact h

theorem isFlush_dropWhile (raw : Text) : IsFlush (raw.dropWhile isBlank) := by
  intro c hc
  have hhead := List.head?_dropWhile_not isBlank raw
  rwa [Option.mem_def.mp hc] at hhead

/-- The first code point that is no blank separates a key from its value. -/
def BeginsWithSeparator (line : Text) : Prop :=
  ∃ c ∈ (line.dropWhile isBlank).head?, isSeparator c = true

theorem beginsWithSeparator_cons {c : CodePoint} (h : isBlank c = false) (t : Text) :
    BeginsWithSeparator (c :: t) ↔ isSeparator c = true := by
  simp [BeginsWithSeparator, h]

theorem cutKey_eq_nil_iff {line : Text} (h : IsFlush line) :
    (cutKey line).1 = [] ↔ line = [] ∨ BeginsWithSeparator line := by
  cases line with
  | nil => simp [cutKey]
  | cons c t =>
    have hblank : isBlank c = false := h c rfl
    rw [beginsWithSeparator_cons hblank]
    by_cases hback : c = CodePoint.ofChar '\\'
    · subst hback
      have hkey : (cutKey (CodePoint.ofChar '\\' :: t)).1 ≠ [] := by cases t <;> simp [cutKey]
      have hmark : isSeparator (CodePoint.ofChar '\\') = false := by decide
      simp [hkey, hmark]
    · cases hsep : isSeparator c with
      | true => simp [cutKey_separator hback hsep]
      | false => simp [cutKey_cons hback hsep hblank]

theorem key_eq_nil_iff {line key value : Text} (hflush : IsFlush line)
    (h : entryOfLine line = .ok (key, value)) :
    key = [] ↔ line = [] ∨ BeginsWithSeparator line := by
  rw [← cutKey_eq_nil_iff hflush]
  show key = [] ↔ (splitLine line).1 = []
  rw [entryOfLine_eq] at h
  cases hvalue : unescape (splitLine line).2 with
  | error cause => simp [hvalue, Except.bind] at h
  | ok v =>
    cases hkey : unescape (splitLine line).1 with
    | error cause => simp [hvalue, hkey, Except.bind] at h
    | ok k =>
      simp only [hvalue, hkey, Except.bind, Except.ok.injEq, Prod.mk.injEq] at h
      rw [← unescape_eq_nil_iff (t := (splitLine line).1), hkey, h.1, Except.ok.injEq]

/-! ## 2. Logical lines of nothing -/

theorem isFlush_of_mem_joinLines {pending : Option Text} {raws : List Text} {line : Text}
    (hpending : IsFlush (pending.getD [])) (h : line ∈ joinLines pending raws) : IsFlush line := by
  fun_induction joinLines pending raws with
  | case1 => cases h
  | case2 => cases h
  | case3 pending =>
    rw [List.mem_singleton.mp h]
    exact hpending
  | case4 pending raw rest stripped hskip ih => exact ih isFlush_nil h
  | case5 pending raw rest stripped hskip hopen ih =>
    apply ih _ h
    exact hpending.append (isFlush_dropWhile raw).dropLast
  | case6 pending raw rest stripped hskip hopen ih =>
    rcases List.mem_cons.mp h with rfl | h
    · exact hpending.append (isFlush_dropWhile raw)
    · exact ih isFlush_nil h

theorem isFlush_of_mem_logicalLines {text line : Text} (h : line ∈ logicalLines text) :
    IsFlush line := by
  apply isFlush_of_mem_joinLines _ h
  exact isFlush_nil

/-- A blank line, where nothing is left of the lines that it continues. -/
def EndsNothing (pending : Option Text) (raws : List Text) : Prop :=
  ∃ before raw after, raws = before ++ raw :: after ∧ before.foldl goesOn pending = some [] ∧
    raw.dropWhile isBlank = []

theorem endsNothing_cons {pending : Option Text} {raw : Text} {rest : List Text} :
    EndsNothing pending (raw :: rest) ↔
      (pending = some [] ∧ raw.dropWhile isBlank = []) ∨ EndsNothing (goesOn pending raw) rest := by
  constructor
  · rintro ⟨before, blank, after, heq, hopen, hblank⟩
    cases before with
    | nil =>
      cases heq
      exact .inl ⟨hopen, hblank⟩
    | cons first before =>
      cases heq
      exact .inr ⟨before, blank, after, rfl, hopen, hblank⟩
  · rintro (⟨hpending, hblank⟩ | ⟨before, blank, after, rfl, hopen, hblank⟩)
    · exact ⟨[], raw, rest, rfl, hpending, hblank⟩
    · exact ⟨raw :: before, blank, after, rfl, hopen, hblank⟩

theorem not_endsNothing_nil {pending : Option Text} : ¬EndsNothing pending [] := by
  rintro ⟨before, blank, after, heq, -⟩
  cases before <;> cases heq

theorem nil_mem_joinLines_iff {pending : Option Text} {raws : List Text} :
    [] ∈ joinLines pending raws ↔ EndsNothing pending raws := by
  fun_induction joinLines pending raws with
  | case1 => simp [not_endsNothing_nil]
  | case2 => simp [not_endsNothing_nil]
  | case3 pending hne => simp_all [not_endsNothing_nil]
  | case4 pending raw rest line hskip ih =>
    have hnone : goesOn pending raw = none := by simp_all [goesOn, line]
    have hpending : pending ≠ some [] := by
      rintro rfl
      cases hskip
    rw [ih, endsNothing_cons, hnone]
    simp [hpending]
  | case5 pending raw rest line hskip hopen ih =>
    have hsome : goesOn pending raw = some (pending.getD [] ++ line.dropLast) := by
      simp_all [goesOn, line]
    have hline : raw.dropWhile isBlank ≠ [] := by
      intro hnil
      simp [line, hnil, isContinued, trailingBackslashes] at hopen
    rw [ih, endsNothing_cons, hsome]
    simp [hline]
  | case6 pending raw rest line hskip hopen ih =>
    have hnone : goesOn pending raw = none := by simp_all [goesOn, line]
    have hnothing : [] = pending.getD [] ++ line ↔ pending = some [] ∧ line = [] := by
      cases pending with
      | none =>
        -- a blank line that continues no other is skipped
        have hline : line ≠ [] := by
          intro hnil
          simp [hnil, isSkipped] at hskip
        simp [hline.symm]
      | some pending => simp [eq_comm]
    rw [List.mem_cons, hnothing, ih, endsNothing_cons, hnone]

theorem nil_mem_logicalLines_iff {text : Text} :
    [] ∈ logicalLines text ↔ EndsNothing none text.naturalLines :=
  nil_mem_joinLines_iff

theorem goesOn_nil (pending : Option Text) : goesOn pending [] = none := by cases pending <;> rfl

/-- At the end of a text, a logical line of nothing shows only if its last natural line ends. -/
theorem logicalLines_append_lf (text : Text) :
    logicalLines (text ++ "\n") = logicalLines text ++ if leftOpen text = some [] then [[]]
    else [] := by
  by_cases hcr : text.getLast? = some (CodePoint.ofChar '\r')
  · -- an LF behind a CR ends no line, and a CR leaves nothing open
    obtain ⟨text, rfl⟩ := List.getLast?_eq_some_iff.mp hcr
    obtain ⟨hline, hlines⟩ := Text.naturalLines_append_cr text
    have hopen : leftOpen (text ++ ("\r" : Text)) = none := by
      rw [leftOpen, hline, List.foldl_append, List.foldl_cons, goesOn_nil]
      rfl
    have hbreak : ("\r" : Text) = [CodePoint.ofChar '\r'] := rfl
    have hbreaks : ("\r\n" : Text) = [CodePoint.ofChar '\r'] ++ ("\n" : Text) := rfl
    rw [hbreak] at hline hopen
    rw [hbreaks, ← List.append_assoc] at hlines
    rw [hopen, if_neg (by simp), List.append_nil, logicalLines, logicalLines, hline, hlines]
  · obtain ⟨made, hmade⟩ := joinLines_append none text.naturalLines
    have hend : logicalLines text = made ++ joinLines (leftOpen text) [] := by
      rw [logicalLines, ← List.append_nil text.naturalLines, hmade]
      rfl
    have hlines : (text ++ ("\n" : Text)).naturalLines = text.naturalLines ++ [[]] := by
      have happend := Text.naturalLines_append hcr []
      rwa [List.append_nil] at happend
    rw [hend, logicalLines, hlines, hmade, ← leftOpen, List.append_assoc,
      List.append_cancel_left_eq]
    cases leftOpen text with
    | none => rfl
    | some pending => cases pending <;> simp [joinLines, isContinued, trailingBackslashes]

/-! ## 3. Entries of a text -/

theorem entryOfLine_nil : entryOfLine [] = .ok ([], []) := rfl

theorem insert_eq_self_iff {e : Entries} {key value : Text} :
    e.insert key value = e ↔ e.get? key = some value := by
  constructor
  · intro h
    rw [← h, get?_insert, if_pos rfl]
  · intro h
    apply ext_keys
    · have hmem : key ∈ e.keys := by
        by_contra hnot
        rw [get?_eq_none_iff.mpr hnot] at h
        cases h
      rw [keys_insert, if_pos hmem]
    · intro key'
      rw [get?_insert]
      split
      · next heq => rw [← heq, h]
      · rfl

theorem ofText_append_lf (text : Text) :
    ofText (text ++ "\n") = if leftOpen text = some [] then (ofText text).map (·.insert [] [])
    else ofText text := by
  rw [ofText, logicalLines_append_lf, readLines_append, ← ofText]
  split
  · cases ofText text with
    | error cause => rfl
    | ok e => rfl
  · cases ofText text with
    | error cause => rfl
    | ok e => rfl

/-- What could be read are the entries on the lines, one after the other. -/
theorem exists_of_readLines {e f : Entries} {lines : List Text} (h : readLines e lines = .ok f) :
    ∃ read : List (Text × Text), lines.map entryOfLine = read.map .ok ∧
      f = read.foldl (fun e p => e.insert p.1 p.2) e := by
  induction lines generalizing e with
  | nil => exact ⟨[], rfl, (Except.ok.inj h).symm⟩
  | cons line lines ih =>
    rw [readLines] at h
    cases hentry : entryOfLine line with
    | error cause => simp [hentry, bind, Except.bind] at h
    | ok p =>
      simp only [hentry, bind, Except.bind] at h
      obtain ⟨read, hread, rfl⟩ := ih h
      exact ⟨p :: read, by rw [List.map_cons, List.map_cons, hentry, hread], rfl⟩

theorem mem_keys_foldl_insert {read : List (Text × Text)} {e : Entries} {key : Text} :
    key ∈ (read.foldl (fun e p => e.insert p.1 p.2) e).keys ↔
    key ∈ e.keys ∨ ∃ value, (key, value) ∈ read := by
  induction read generalizing e with
  | nil => simp
  | cons p read ih =>
    obtain ⟨key', value'⟩ := p
    have hinsert : key ∈ (e.insert key' value').keys ↔ key ∈ e.keys ∨ key = key' := by
      rw [keys_insert]
      split
      · next hmem =>
        constructor
        · exact .inl
        · rintro (hkey | rfl)
          · exact hkey
          · exact hmem
      · rw [List.mem_append, List.mem_singleton]
    rw [List.foldl_cons, ih, hinsert, or_assoc]
    simp [exists_or]

/-- A key is there if it stands on a line. -/
theorem mem_keys_ofText {text key : Text} {e : Entries} (h : ofText text = .ok e) :
    key ∈ e.keys ↔ ∃ line ∈ logicalLines text, ∃ value, entryOfLine line = .ok (key, value) := by
  obtain ⟨read, hread, rfl⟩ := exists_of_readLines h
  rw [mem_keys_foldl_insert]
  constructor
  · rintro (hempty | ⟨value, hmem⟩)
    · cases hempty
    · have hline : Except.ok (key, value) ∈ (logicalLines text).map entryOfLine := by
        rw [hread]
        exact List.mem_map_of_mem hmem
      obtain ⟨line, hline, hentry⟩ := List.mem_map.mp hline
      exact ⟨line, hline, value, hentry⟩
  · rintro ⟨line, hline, value, hentry⟩
    have hmem : entryOfLine line ∈ read.map Except.ok := by
      rw [← hread]
      exact List.mem_map_of_mem hline
    obtain ⟨p, hp, heq⟩ := List.mem_map.mp hmem
    rw [hentry] at heq
    exact .inr ⟨value, Except.ok.inj heq ▸ hp⟩

theorem exists_entry_of_ofText {text line : Text} {e : Entries} (h : ofText text = .ok e)
    (hline : line ∈ logicalLines text) : ∃ key value, entryOfLine line = .ok (key, value) := by
  obtain ⟨read, hread, -⟩ := exists_of_readLines h
  have hmem : entryOfLine line ∈ read.map Except.ok := by
    rw [← hread]
    exact List.mem_map_of_mem hline
  obtain ⟨p, -, heq⟩ := List.mem_map.mp hmem
  exact ⟨p.1, p.2, heq.symm⟩

/-- **Blank lines contribute nothing, but for those that end a line of nothing.** An LF more at the
end of a text makes no difference, unless the text leaves a line open on which nothing stands; it
does then, if the text can be read and has not got an empty value under an empty key already. Every
entry with an empty key comes from a line that begins with a separator, unless a blank line ends
lines of which nothing is left; those are entries with an empty key too. -/
theorem ofText_append_lf_eq_iff (text : Text) :
    (ofText (text ++ "\n") = ofText text ↔
      (leftOpen text = some [] → ∀ e, ofText text = .ok e → e.get? [] = some [])) ∧
    ((∀ line ∈ logicalLines text, ∀ value, entryOfLine line = .ok ([], value) →
      BeginsWithSeparator line) ↔
      ¬EndsNothing none text.naturalLines) ∧
    ∀ e, ofText text = .ok e →
      ([] ∈ e.keys ↔ EndsNothing none text.naturalLines ∨
        ∃ line ∈ logicalLines text, BeginsWithSeparator line) := by
  have hempty {line key value : Text} (hline : line ∈ logicalLines text)
      (hentry : entryOfLine line = .ok (key, value)) : key = [] ↔
      line = [] ∨ BeginsWithSeparator line :=
    key_eq_nil_iff (isFlush_of_mem_logicalLines hline) hentry
  refine ⟨?_, ?_, ?_⟩
  · rw [ofText_append_lf]
    split
    · next hopen =>
      cases ofText text with
      | error cause => simp [Except.map]
      | ok e => simp [Except.map, insert_eq_self_iff, hopen]
    · next hopen => simp [hopen]
  · rw [← nil_mem_logicalLines_iff]
    constructor
    · intro h hnil
      obtain ⟨c, hc, -⟩ := h [] hnil [] entryOfLine_nil
      cases hc
    · intro hnil line hline value hentry
      apply ((hempty hline hentry).mp rfl).resolve_left
      rintro rfl
      exact hnil hline
  · intro e he
    rw [mem_keys_ofText he, ← nil_mem_logicalLines_iff]
    constructor
    · rintro ⟨line, hline, value, hentry⟩
      rcases (hempty hline hentry).mp rfl with rfl | hbegins
      · exact .inl hline
      · exact .inr ⟨line, hline, hbegins⟩
    · rintro (hnil | ⟨line, hline, hbegins⟩)
      · exact ⟨[], hnil, [], entryOfLine_nil⟩
      · obtain ⟨key, value, hentry⟩ := exists_entry_of_ofText he hline
        obtain rfl := (hempty hline hentry).mpr (.inr hbegins)
        exact ⟨line, hline, value, hentry⟩

/-- **A line of one backslash and the end of it make an entry with an empty key**, which the
backslash alone does not. -/
theorem entry_of_nothing :
    ofText (("\\" : Text) ++ "\n") ≠ ofText "\\" ∧
      (ofText "\\").map (·.pairs) = .ok [] ∧
      (ofText (("\\" : Text) ++ "\n")).map (·.pairs) = .ok [([], [])] ∧
      ∃ line ∈ logicalLines (("\\" : Text) ++ "\n"),
        entryOfLine line = .ok ([], []) ∧ ¬BeginsWithSeparator line := by
  have halone : (ofText "\\").map (·.pairs) = .ok [] := by decide +kernel
  have hended : (ofText (("\\" : Text) ++ "\n")).map (·.pairs) = .ok [([], [])] := by decide +kernel
  refine ⟨?_, halone, hended, [], by decide +kernel, rfl, ?_⟩
  · intro heq
    rw [heq, halone] at hended
    cases hended
  · rintro ⟨c, hc, -⟩
    cases hc

end Entries

end IndexChain
