import IndexChain.Proofs.Entries.Marks

/-!
# The grammar of entries

**`ofText` reads what the scanner reads** (`scanText_agrees`): the passes over a text, of which each
cuts or joins what the one before it has left, and the machine that takes one code point after the
other and never looks back.

At the end of a natural line the scanner is at `Scan.awaiting`: it has the entries so far, and the
marks of what is pending. One more natural line leads from there to there (`line_of_isSkipped`,
`line_of_endsOpen` and `line_of_not_endsOpen`, which are the arms of `joinLines`), and so do any
number of them (`agrees_lines`).

## Where they part

Of a logical line on which nothing is left after its parts are joined, `ofText` makes an entry with
an empty key and the scanner none; this is why the theorem asks for lines that are not empty.

A half of a surrogate pair may stand in a text unescaped. The scanner leaves it as it is, and so
does `unescape` where the key or value has no backslash. Where it has one, `unescape` puts all
halves together that are side by side, escaped or not (`parted_by_halves`). So the theorem asks for
keys and values in which no half stands unescaped beside an escape (`Unmixed`).
-/

namespace IndexChain.Entries

/-! ## 1. Natural lines -/

namespace Scan

/-- What is known of a logical line after some more marks. -/
def gather (item : Option Item) (ms : List Mark) : Option Item :=
  ms.foldl (fun item m => some ((item.getD {}).push m)) item

theorem gather_append (item : Option Item) (ms ns : List Mark) :
    gather item (ms ++ ns) = gather (gather item ms) ns :=
  List.foldl_append

/-- Any mark begins a line. -/
theorem gather_marks {t : Text} (h : Complete t) (hne : t ≠ []) :
    gather none (marks t) = some (.ofText t) := by
  have hsome (item : Item) (ms : List Mark) :
      gather (some item) ms = some (ms.foldl Item.push item) := by
    induction ms generalizing item with
    | nil => rfl
    | cons m ms ih => exact ih _
  obtain ⟨m, ms, hms⟩ := List.exists_cons_of_ne_nil (h.marks_ne_nil hne)
  rw [Item.ofText, hms]
  exact hsome _ _

variable {entries : Except Flaw Entries} {item : Option Item}

/-- Within a line the scanner passes its marks on, and is left with a backslash if the line ends
open. -/
theorem foldl_within (t : Text) :
    t.foldl point ⟨entries, item, .within⟩ =
      ⟨entries, gather item (marks t), if endsOpen t then .backslash else .within⟩ := by
  fun_induction endsOpen t generalizing item with
  | case1 => rfl
  | case2 c => by_cases hc : c = CodePoint.ofChar '\\' <;> simp [point, mark, marks, gather, hc]
  | case3 c rest ih =>
    rw [marks_pair]
    exact ih
  | case4 c d rest hc ih =>
    have hpoint : point ⟨entries, item, .within⟩ c = mark ⟨entries, item, .within⟩ (.plain c) := by
      simp [point, hc]
    rw [List.foldl_cons, hpoint, marks_cons hc]
    exact ih

theorem foldl_comment (t : Text) :
    t.foldl point ⟨entries, item, .comment⟩ = ⟨entries, item, .comment⟩ := by
  induction t with
  | nil => rfl
  | cons c t ih => exact ih

/-- Where the scanner is at the end of a natural line. -/
def awaiting (entries : Except Flaw Entries) (pending : Option Text) : Scan :=
  ⟨entries, gather none (marks (pending.getD [])), if pending.isNone then .outset else .resumed⟩

/-- A natural line, and its end. -/
def line (s : Scan) (raw : Text) : Scan := (raw.foldl point s).endLine

variable {pending : Option Text} {raw : Text}

/-- Blanks at the beginning of a natural line do not count. -/
theorem foldl_awaiting_blank (raw : Text) :
    raw.foldl point (awaiting entries pending) =
      (raw.dropWhile isBlank).foldl point (awaiting entries pending) := by
  induction raw with
  | nil => rfl
  | cons c raw ih =>
    by_cases hblank : isBlank c = true
    · have hpoint : point (awaiting entries pending) c = awaiting entries pending := by
        cases pending <;> simp [awaiting, point, hblank]
      rw [List.dropWhile_cons_of_pos hblank, List.foldl_cons, hpoint, ih]
    · rw [List.dropWhile_cons_of_neg hblank]

theorem isBlank_of_dropWhile {c : CodePoint} {t : Text} (h : raw.dropWhile isBlank = c :: t) :
    isBlank c = false := by
  have hhead := List.head_dropWhile_not (p := isBlank) (l := raw) (by simp [h])
  simpa only [h, List.head_cons] using hhead

/-- A line that is neither blank nor a comment, or that continues another, belongs to a logical
line. -/
theorem foldl_awaiting (h : (pending.isNone && isSkipped (raw.dropWhile isBlank)) = false)
    (hpending : Complete (pending.getD [])) :
    ∃ position, raw.foldl point (awaiting entries pending) =
        ⟨entries, gather none (marks (pending.getD [] ++ raw.dropWhile isBlank)), position⟩ ∧
      (position = .backslash ↔ endsOpen (raw.dropWhile isBlank) = true) := by
  rw [foldl_awaiting_blank, hpending.marks_append, gather_append]
  cases hline : raw.dropWhile isBlank with
  | nil =>
    -- a blank line leaves the scanner where it was
    refine ⟨_, rfl, ?_⟩
    cases pending <;> simp [endsOpen]
  | cons c t =>
    -- on the first code point that is no blank it does what it does within a line
    have hblank := isBlank_of_dropWhile hline
    have hpoint : point (awaiting entries pending) c =
        point ⟨entries, gather none (marks (pending.getD [])), .within⟩ c := by
      rw [hline] at h
      cases pending with
      | none => simp_all [awaiting, point, mark, isSkipped]
      | some pending => simp [awaiting, point, mark, hblank]
    rw [List.foldl_cons, hpoint, ← List.foldl_cons, foldl_within]
    refine ⟨_, rfl, ?_⟩
    split <;> simp_all

/-- A line that is skipped leaves no trace, whatever it ends in. -/
theorem line_of_isSkipped (h : isSkipped (raw.dropWhile isBlank) = true) :
    (awaiting entries none).line raw = awaiting entries none := by
  rw [line, foldl_awaiting_blank]
  cases hline : raw.dropWhile isBlank with
  | nil => rfl
  | cons c t =>
    have hpoint : point (awaiting entries none) c = ⟨entries, none, .comment⟩ := by
      have hmark : (c = '#' || c = '!') = true := by
        rw [hline] at h
        exact h
      simp only [awaiting, point, isBlank_of_dropWhile hline, hmark]
      rfl
    rw [List.foldl_cons, hpoint, foldl_comment]
    rfl

theorem settle_awaiting {t : Text} (hcomplete : Complete t) (hne : t ≠ []) :
    (awaiting entries (some t)).settle.entries =
      entries.bind fun entries => (Item.ofText t).finish.map fun p => entries.insert p.1 p.2 := by
  simp only [awaiting, Option.getD_some, gather_marks hcomplete hne, settle]

section

variable (h : (pending.isNone && isSkipped (raw.dropWhile isBlank)) = false)
  (hpending : Complete (pending.getD []))
include h hpending

/-- A line that is continued is awaited to go on, without the backslash. -/
theorem line_of_endsOpen (hopen : endsOpen (raw.dropWhile isBlank) = true) :
    (awaiting entries pending).line raw =
      awaiting entries (some (pending.getD [] ++ (raw.dropWhile isBlank).dropLast)) := by
  obtain ⟨position, hfold, hposition⟩ := foldl_awaiting h hpending
  rw [line, hfold, hposition.mpr hopen, awaiting, Option.getD_some, hpending.marks_append,
    hpending.marks_append, (complete_dropLast hopen).2]
  rfl

/-- A line that is not continued ends the logical line. -/
theorem line_of_not_endsOpen (hopen : endsOpen (raw.dropWhile isBlank) = false)
    (hne : pending.getD [] ++ raw.dropWhile isBlank ≠ []) :
    (awaiting entries pending).line raw =
      awaiting (entries.bind fun entries =>
        (Item.ofText (pending.getD [] ++ raw.dropWhile isBlank)).finish.map fun p =>
          entries.insert p.1 p.2)
        none := by
  obtain ⟨position, hfold, hposition⟩ := foldl_awaiting h hpending
  have hback : position ≠ .backslash := by
    intro e
    rw [hposition.mp e] at hopen
    cases hopen
  have hcomplete := hpending.append (complete_of_endsOpen hopen)
  rw [line, hfold, gather_marks hcomplete hne]
  cases position with
  | backslash => exact absurd rfl hback
  | outset | comment | within | resumed => rfl

end

end Scan

section Reading

variable {e : Except Corruption Entries} {entries : Except Flaw Entries}

theorem bind_readLines_nil : (e >>= fun e => readLines e []) = e := by
  cases e <;> rfl

theorem bind_readLines_cons (line : Text) (rest : List Text) :
    (e >>= fun e => readLines e (line :: rest)) =
      (e >>= fun e => (entryOfLine line).map fun p => e.insert p.1 p.2) >>= fun e =>
        readLines e rest := by
  cases e with
  | error cause => rfl
  | ok e =>
    show readLines e (line :: rest) = ((entryOfLine line).map fun p => e.insert p.1 p.2) >>= _
    rw [readLines]
    cases entryOfLine line <;> rfl

theorem Agrees.insert (h : Agrees e entries) {line : Text} (hcomplete : Complete line)
    (hunmixed : Unmixed line) :
    Agrees (e >>= fun e => (entryOfLine line).map fun p => e.insert p.1 p.2)
      (entries.bind fun entries => (Item.ofText line).finish.map fun p => entries.insert p.1 p.2) :=
  h.bind fun es => (agrees_entryOfLine hcomplete hunmixed).map fun p => es.insert p.1 p.2

/-- **Natural lines are joined by the scanner as `joinLines` joins them**, and read as `readLines`
reads them. -/
theorem agrees_lines {pending : Option Text} {raws : List Text}
    (hpending : Complete (pending.getD []))
    (hlines : ∀ line ∈ joinLines pending raws, Unmixed line ∧ line ≠ []) :
    ∀ {e : Except Corruption Entries} {entries : Except Flaw Entries}, Agrees e entries →
      Agrees (e >>= fun e => readLines e (joinLines pending raws))
        (raws.foldl Scan.line (.awaiting entries pending)).settle.entries := by
  -- the cases are those of `joinLines`: three ends of the text, and three kinds of natural lines
  fun_induction joinLines pending raws with
  | case1 =>
    intro e entries h
    rw [bind_readLines_nil]
    exact h
  | case2 pending hempty =>
    intro e entries h
    -- what was to be continued is nothing, at the end of the text
    obtain rfl : pending = [] := by simpa using hempty
    rw [bind_readLines_nil]
    exact h
  | case3 pending =>
    intro e entries h
    obtain ⟨hunmixed, hne⟩ := hlines pending List.mem_cons_self
    rw [List.foldl_nil, Scan.settle_awaiting (t := pending) hpending hne, bind_readLines_cons,
      bind_readLines_nil]
    exact h.insert hpending hunmixed
  | case4 pending raw rest line hskip ih =>
    intro e entries h
    obtain ⟨hnone, hskip⟩ := Bool.and_eq_true_iff.mp hskip
    obtain rfl := Option.isNone_iff_eq_none.mp hnone
    rw [List.foldl_cons, Scan.line_of_isSkipped hskip]
    exact ih .nil hlines h
  | case5 pending raw rest line hskip hopen ih =>
    intro e entries h
    rw [isContinued_eq_endsOpen] at hopen
    rw [List.foldl_cons, Scan.line_of_endsOpen (by simpa using hskip) hpending hopen]
    exact ih (hpending.append (complete_dropLast hopen).1) hlines h
  | case6 pending raw rest line hskip hopen ih =>
    intro e entries h
    rw [isContinued_eq_endsOpen, Bool.not_eq_true] at hopen
    obtain ⟨hunmixed, hne⟩ := hlines _ List.mem_cons_self
    rw [List.foldl_cons, Scan.line_of_not_endsOpen (by simpa using hskip) hpending hopen hne,
      bind_readLines_cons]
    exact ih .nil (fun l hl => hlines l (List.mem_cons_of_mem _ hl))
      (h.insert (hpending.append (complete_of_endsOpen hopen)) hunmixed)

end Reading

/-! ## 2. Texts -/

/-- A text whose lines end in LF. -/
def Scan.read (s : Scan) (c : CodePoint) : Scan := if c = '\n' then s.endLine else s.point c

/-- **CR and CR LF end a line as LF does.** -/
theorem foldl_step (text : Text) (scan : Scan) :
    (text.foldl Scanner.step ⟨scan, false⟩).scan =
      (Text.unifyBreaks text).foldl Scan.read scan := by
  -- that a CR came last matters to an LF only
  have hafter (c : CodePoint) (rest : Text) (hc : c ≠ '\n') (scan : Scan) :
      (c :: rest).foldl Scanner.step ⟨scan, true⟩ =
        (c :: rest).foldl Scanner.step ⟨scan, false⟩ := by
    simp [Scanner.step, hc]
  fun_induction Text.unifyBreaks text generalizing scan with
  | case1 => rfl
  | case2 => rfl
  | case3 rest ih => exact ih scan.endLine
  | case4 d rest hd ih =>
    have hstep : Scanner.step ⟨scan, false⟩ '\r' = ⟨scan.endLine, true⟩ := rfl
    rw [List.foldl_cons, hstep, hafter d rest hd]
    exact ih scan.endLine
  | case5 c rest hc ih =>
    have hstep : Scanner.step ⟨scan, false⟩ c = ⟨scan.read c, false⟩ := by
      by_cases hlf : c = CodePoint.ofChar '\n'
      · subst hlf
        rfl
      · simp [Scanner.step, Scan.read, hc, hlf]
    rw [List.foldl_cons, hstep]
    exact ih (scan.read c)

/-- **A text is read line by line**, but for the end of its last line. -/
theorem foldl_splitAt (text : Text) (s : Scan) :
    (Text.splitAt '\n' text).foldl Scan.line s = (text.foldl Scan.read s).endLine := by
  induction text generalizing s with
  | nil => rfl
  | cons c text ih =>
    rw [Text.splitAt, List.foldl_cons, Scan.read]
    split
    · exact ih s.endLine
    · rw [← ih (s.point c)]
      obtain ⟨piece, pieces, hpieces⟩ := List.exists_cons_of_ne_nil (Text.splitAt_ne_nil '\n' text)
      rw [hpieces]
      rfl

/-- The end of the last line changes nothing but where the scanner is. -/
theorem settle_endLine (s : Scan) : s.endLine.settle.entries = s.settle.entries := by
  obtain ⟨entries, item, position⟩ := s
  cases position <;> cases item <;> rfl

/-- **Cutting a text into lines, joining them, splitting them and decoding their parts comes to what
the scanner does in one go**, for every text in which no logical line is empty and no half of a
surrogate pair stands unescaped in a key or value that has a backslash. -/
theorem scanText_agrees {text : Text} (hunmixed : ∀ line ∈ logicalLines text, Unmixed line)
    (hlines : ∀ line ∈ logicalLines text, line ≠ []) : Agrees (ofText text) (scanText text) := by
  have hscan : scanText text =
      ((Text.naturalLines text).foldl Scan.line (.awaiting (.ok empty) none)).settle.entries := by
    rw [Text.naturalLines, foldl_splitAt, settle_endLine, scanText]
    exact congrArg (fun s : Scan => s.settle.entries) (foldl_step text {})
  have hall : ∀ line ∈ joinLines none (Text.naturalLines text), Unmixed line ∧ line ≠ [] :=
    fun line hl =>
    ⟨hunmixed line hl, hlines line hl⟩
  have hnone : Complete ((none : Option Text).getD []) := .nil
  rw [hscan]
  exact agrees_lines hnone hall (.ok empty)

/-- The two halves of a surrogate pair, side by side and unescaped. -/
def halves : Text := [.ofNat 0xD83D, .ofNat 0xDE00]

/-- Two halves without an escape beside them, a comment that ends in a backslash, a key on two lines
of which the second begins with `#`, an escape on two lines, two escaped halves, a blank line that
continues another, a key that comes again, and a backslash at the end. -/
def continued : Text :=
  "h=" ++ halves ++ "\n! a comment \\\r\n a\\ b\\\r\n \t#c : 1\r" ++
    "k=\\u00\\\n  e9\\ud83d\\uDE00\\\n\na\\ b#c=\\=2\nlast\\"

theorem scanText_agrees_continued :
    (∀ line ∈ logicalLines continued, Unmixed line) ∧ (∀ line ∈ logicalLines continued, line ≠ []) ∧
      Agrees (ofText continued) (scanText continued) ∧
      (scanText continued).map (·.pairs) =
        .ok [("h", halves), ("a b#c", "=2"), ("k", "é😀"), ("last", "")] := by
  have hunmixed : ∀ line ∈ logicalLines continued, Unmixed line := by decide +kernel
  have hlines : ∀ line ∈ logicalLines continued, line ≠ [] := by decide +kernel
  have hread : (scanText continued).map (·.pairs) =
      .ok [("h", halves), ("a b#c", "=2"), ("k", "é😀"), ("last", "")] := by
    decide +kernel
  exact ⟨hunmixed, hlines, scanText_agrees hunmixed hlines, hread⟩

/-- Two halves side by side, and an escape. -/
def besideEscape : Text := "a=" ++ halves ++ "\\t"

/-- Two halves on two lines, of which the second continues the first, with an escape behind them;
and the same with both halves escaped. -/
def joinedHalves : Text :=
  CodePoint.ofNat 0xD83D :: "\\\n" ++ [CodePoint.ofNat 0xDE00] ++ "\\t=1\n\\ud83d\\ude00\\t=2"

/-- **Beside an escape the two part**, though no half stands alone: `ofText` puts halves together
that are not escaped, and the scanner does not. So the scanner may find two keys where `ofText`
finds one. -/
theorem parted_by_halves :
    (∀ line ∈ logicalLines besideEscape, line ≠ []) ∧
      (Text.pairHalves? besideEscape).isSome = true ∧
      (ofText besideEscape).toOption.map (·.pairs) = some [(("a" : Text), ("😀\t" : Text))] ∧
      (scanText besideEscape).map (·.pairs) = .ok [("a", halves ++ "\t")] ∧
    (∀ line ∈ logicalLines joinedHalves, line ≠ []) ∧
      (ofText joinedHalves).toOption.map (·.pairs) = some [(("😀\t" : Text), ("2" : Text))] ∧
      (scanText joinedHalves).map (·.pairs) = .ok [(halves ++ "\t", "1"), ("😀\t", "2")] := by
  decide +kernel

end IndexChain.Entries
