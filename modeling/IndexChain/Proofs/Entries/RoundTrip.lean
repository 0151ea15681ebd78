import IndexChain.Entries.Written
import IndexChain.Proofs.Entries.Lines

/-!
# Entries as text — what is written is what is read

**`ofText_toText`**: entries without halves of surrogate pairs are read back exactly, whatever the
comment and whatever the clock says. The heading contributes nothing, because every line of it
begins with `#`; the lines of the entries contribute one entry each, because `splitLine` finds what
was written for key and value and `unescape` undoes it; and the order is kept, because keys are
distinct and so every `insert` goes to the end.

The same holds of resources, whose content is bytes (`ofPayload_toBytes?`). There the assumption
about halves of pairs is met by itself: **entries that were read from bytes hold no halves**
(`isWhole_of_ofPayload_bytes`), so what one session stores the next one loads unchanged.
-/

namespace IndexChain

/-! ## 1. Digits and dates -/

namespace Text

open Entries (IsPrintable)

theorem isPrintable_ofNat (n : Nat) : ∀ c ∈ ofNat n, IsPrintable c := by
  intro c hc
  have hval := val_of_mem_ofNat hc
  rw [IsPrintable]
  omega

theorem isPrintable_padded (width n : Nat) : ∀ c ∈ padded width n, IsPrintable c := by
  intro c hc
  rcases List.mem_append.mp hc with hc | hc
  · rw [(List.mem_replicate.mp hc).2]
    decide
  · exact isPrintable_ofNat n c hc

theorem isPrintable_join {sep : Text} {pieces : List Text} (hsep : ∀ c ∈ sep, IsPrintable c)
    (h : ∀ piece ∈ pieces, ∀ c ∈ piece, IsPrintable c) : ∀ c ∈ join sep pieces, IsPrintable c := by
  fun_induction join sep pieces with
  | case1 => simp
  | case2 t => exact h t List.mem_cons_self
  | case3 t u rest ih =>
    intro c hc
    rcases List.mem_append.mp hc with hc | hc
    · rcases List.mem_append.mp hc with hc | hc
      · exact h t List.mem_cons_self c hc
      · exact hsep c hc
    · exact ih (fun piece hp => h piece (List.mem_cons_of_mem t hp)) c hc

/-- A text from a table is printable if the whole table is. -/
theorem isPrintable_getD {table : List String}
    (h : ∀ s ∈ table, ∀ c ∈ ofString s, IsPrintable c) (i : Nat) :
    ∀ c ∈ ofString (table[i]?.getD ""), IsPrintable c := by
  cases hi : table[i]? with
  | none => exact fun c hc => absurd hc (by decide +revert)
  | some s => exact h s (List.mem_of_getElem? hi)

theorem isPrintable_timeText (m : Moment) : ∀ c ∈ m.timeText, IsPrintable c := by
  refine isPrintable_join (by decide) fun piece hpiece => ?_
  simp only [List.mem_cons, List.not_mem_nil, or_false] at hpiece
  rcases hpiece with rfl | rfl | rfl <;> exact isPrintable_padded _ _

/-- The date line is printable, so it is one line and has Latin-1 bytes. -/
theorem isPrintable_dateText (m : Moment) : ∀ c ∈ m.dateText, IsPrintable c := by
  refine isPrintable_join (by decide) fun piece hpiece => ?_
  simp only [List.mem_cons, List.not_mem_nil, or_false] at hpiece
  rcases hpiece with rfl | rfl | rfl | rfl | rfl | rfl
  · exact isPrintable_getD (by decide) _
  · exact isPrintable_getD (by decide) _
  · exact isPrintable_padded _ _
  · exact isPrintable_timeText m
  · decide
  · exact isPrintable_ofNat _

theorem isOneLine_of_isPrintable {t : Text} (h : ∀ c ∈ t, IsPrintable c) : t.IsOneLine := by
  intro c hc
  exact ⟨fun e => absurd (e ▸ h c hc) (by decide), fun e => absurd (e ▸ h c hc) (by decide)⟩

end Text

/-! ## 2. Distinct keys -/

theorem Pairs.set_of_not_mem {κ α : Type} [DecidableEq κ] {k : κ} {pairs : List (κ × α)}
    (h : k ∉ pairs.map Prod.fst) (v : α) : Pairs.set k v pairs = pairs ++ [(k, v)] := by
  induction pairs with
  | nil => rfl
  | cons p pairs ih =>
    obtain ⟨k', v'⟩ := p
    rw [List.map_cons, List.mem_cons, not_or] at h
    rw [Pairs.set, if_neg fun e => h.1 e.symm, ih h.2]
    rfl

namespace Entries

theorem pairs_foldl_insert {pairs : List (Text × Text)} {e : Entries}
    (h : ((e.pairs ++ pairs).map Prod.fst).Nodup) :
    (pairs.foldl (fun e p => e.insert p.1 p.2) e).pairs = e.pairs ++ pairs := by
  induction pairs generalizing e with
  | nil => simp
  | cons p pairs ih =>
    have hset : (e.insert p.1 p.2).pairs = e.pairs ++ [p] := by
      refine Pairs.set_of_not_mem (fun hm => ?_) p.2
      rw [List.map_append, List.nodup_append] at h
      exact h.2.2 _ hm p.1 (by simp) rfl
    have hassoc : (e.insert p.1 p.2).pairs ++ pairs = e.pairs ++ p :: pairs := by
      rw [hset, List.append_assoc, List.singleton_append]
    rw [List.foldl_cons, ih (hassoc ▸ h), hassoc]

/-- **Entries are made again by inserting them one after the other**, in the same order. -/
theorem ofList_pairs (e : Entries) : Entries.ofList e.pairs = e := by
  apply Entries.ext
  rw [ofList, pairs_foldl_insert (by simpa [empty] using e.nodup_keys)]
  rfl

/-! ## 3. Written lines -/

/-- No key and no value holds half of a surrogate pair. -/
def IsWhole (e : Entries) : Prop := ∀ p ∈ e.pairs, p.1.IsWhole ∧ p.2.IsWhole

instance (e : Entries) : Decidable e.IsWhole :=
  inferInstanceAs (Decidable (∀ p ∈ e.pairs, p.1.IsWhole ∧ p.2.IsWhole))

theorem isPrintable_entryLine (p : Text × Text) : ∀ c ∈ entryLine p, IsPrintable c := by
  intro c hc
  rcases List.mem_append.mp hc with hc | hc
  · rcases List.mem_append.mp hc with hc | hc
    · exact isPrintable_escapeKey p.1 c hc
    · exact (by decide : ∀ c ∈ ("=" : Text), IsPrintable c) c hc
  · exact isPrintable_escapeValue p.2 c hc

/-- The line of an entry is its own logical line, whatever follows. -/
theorem joinLines_entryLine (p : Text × Text) (rest : List Text) :
    joinLines none (entryLine p :: rest) = entryLine p :: joinLines none rest := by
  have hmark : ("=" : Text) = [CodePoint.ofChar '='] := rfl
  have hhead : ∃ c t, entryLine p = c :: t ∧ isBlank c = false ∧ c ≠ '#' ∧ c ≠ '!' := by
    cases hkey : escapeKey p.1 with
    | nil =>
      -- with an empty key the line begins with the separator
      refine ⟨'=', escapeValue p.2, ?_, by decide, by decide, by decide⟩
      rw [entryLine, hkey, hmark, List.nil_append, List.singleton_append]
    | cons c t =>
      refine ⟨c, t ++ "=" ++ escapeValue p.2, ?_, (hkey ▸ escaped_escapeKey p.1).head_stays⟩
      rw [entryLine, hkey, List.cons_append, List.cons_append]
  have hopen : endsOpen (entryLine p) = false := by
    -- neither the key nor the value ends with half a pair
    rw [entryLine, List.append_assoc, (escaped_escapeKey p.1).endsOpen_append, hmark,
      List.singleton_append, endsOpen_cons (by decide), ← List.append_nil (escapeValue p.2),
      (escaped_escapeValue p.2).endsOpen_append]
    rfl
  obtain ⟨c, t, heq, hblank, hhash, hbang⟩ := hhead
  have hdrop : (entryLine p).dropWhile isBlank = entryLine p := by
    rw [heq, List.dropWhile_cons_of_neg (by simp [hblank])]
  have hskip : isSkipped ((entryLine p).dropWhile isBlank) = false := by
    rw [hdrop, heq]
    simp [isSkipped, hhash, hbang]
  rw [joinLines_line hskip (by rw [hdrop]; exact hopen), hdrop]

theorem joinLines_comments {lines : List Text}
    (h : ∀ line ∈ lines, ∃ t, line = CodePoint.ofChar '#' :: t) (rest : List Text) :
    joinLines none (lines ++ rest) = joinLines none rest := by
  induction lines with
  | nil => rfl
  | cons line lines ih =>
    obtain ⟨t, rfl⟩ := h line List.mem_cons_self
    have hskip : isSkipped ((CodePoint.ofChar '#' :: t).dropWhile isBlank) = true := by
      rw [List.dropWhile_cons_of_neg (by decide)]
      rfl
    rw [List.cons_append, joinLines_skipped hskip, ih fun l hl => h l (List.mem_cons_of_mem _ hl)]

theorem joinLines_entryLines (pairs : List (Text × Text)) :
    joinLines none (pairs.map entryLine ++ [[]]) = pairs.map entryLine := by
  induction pairs with
  | nil => rfl
  | cons p pairs ih => rw [List.map_cons, List.cons_append, joinLines_entryLine, ih]

/-! ## 4. The heading -/

/-- The lines in front of the entries. -/
def heading (comment : Option Text) (now : Moment) : List Text :=
  commentLines comment ++ [dateLine now]

theorem toText_eq (e : Entries) (comment : Option Text) (now : Moment) :
    e.toText comment now =
      (heading comment now ++ e.pairs.map entryLine).flatMap fun line => line ++ ("\n" : Text) := by
  rw [toText, heading, List.append_assoc, List.singleton_append]

/-- Every line of the heading is a comment. A line terminator in the comment ends a line of it, so
    what follows is a comment again. -/
theorem heading_lines {comment : Option Text} {now : Moment} {line : Text}
    (h : line ∈ heading comment now) :
    line.IsOneLine ∧ ∃ t, line = CodePoint.ofChar '#' :: t := by
  rcases List.mem_append.mp h with h | h
  · unfold commentLines at h
    split at h
    · simp at h
    · next c rest _ =>
      obtain ⟨natural, hnatural, rfl⟩ := List.mem_map.mp h
      refine ⟨fun d hd => ?_, natural, rfl⟩
      rcases List.mem_cons.mp hd with rfl | hd
      · exact ⟨by decide, by decide⟩
      · exact Text.isOneLine_of_mem_naturalLines hnatural d hd
  · rw [List.mem_singleton] at h
    subst h
    have hmark : ("#" : Text) = [CodePoint.ofChar '#'] := rfl
    refine ⟨fun d hd => ?_, now.dateText, by rw [dateLine, hmark, List.singleton_append]⟩
    rcases List.mem_append.mp hd with hd | hd
    · exact (by decide : ∀ c ∈ ("#" : Text), c ≠ '\n' ∧ c ≠ '\r') d hd
    · exact Text.isOneLine_of_isPrintable (Text.isPrintable_dateText now) d hd

/-- **The logical lines of written entries are the lines of the entries.** -/
theorem logicalLines_toText (e : Entries) (comment : Option Text) (now : Moment) :
    logicalLines (e.toText comment now) = e.pairs.map entryLine := by
  have hone : ∀ line ∈ heading comment now ++ e.pairs.map entryLine, line.IsOneLine := by
    intro line hl
    rcases List.mem_append.mp hl with hl | hl
    · exact (heading_lines hl).1
    · obtain ⟨p, _, rfl⟩ := List.mem_map.mp hl
      exact Text.isOneLine_of_isPrintable (isPrintable_entryLine p)
  rw [logicalLines, toText_eq, Text.naturalLines_terminated hone, List.append_assoc,
    joinLines_comments fun line hl => (heading_lines hl).2, joinLines_entryLines]

/-! ## 5. The round trip -/

theorem entryOfLine_entryLine {p : Text × Text} (h : p.1.IsWhole ∧ p.2.IsWhole) :
    entryOfLine (entryLine p) = .ok p := by
  rw [entryOfLine, entryLine, splitLine_escaped]
  simp only [unescape_escapeValue h.2, unescape_escapeKey h.1]
  rfl

theorem readLines_entryLines {pairs : List (Text × Text)}
    (h : ∀ p ∈ pairs, p.1.IsWhole ∧ p.2.IsWhole) (e : Entries) :
    readLines e (pairs.map entryLine) = .ok (pairs.foldl (fun e p => e.insert p.1 p.2) e) := by
  induction pairs generalizing e with
  | nil => rfl
  | cons p pairs ih =>
    rw [List.map_cons, readLines, entryOfLine_entryLine (h p List.mem_cons_self)]
    exact ih (fun q hq => h q (List.mem_cons_of_mem p hq)) (e.insert p.1 p.2)

theorem ofText_toText {e : Entries} (h : e.IsWhole) (comment : Option Text) (now : Moment) :
    ofText (e.toText comment now) = .ok e := by
  rw [ofText, logicalLines_toText, readLines_entryLines h]
  exact congrArg Except.ok (ofList_pairs e)

theorem IsWhole.insert {e : Entries} (h : e.IsWhole) {key value : Text} (hk : key.IsWhole)
    (hv : value.IsWhole) : (e.insert key value).IsWhole := by
  have hset (pairs : List (Text × Text)) (hp : ∀ p ∈ pairs, p.1.IsWhole ∧ p.2.IsWhole) :
      ∀ p ∈ Pairs.set key value pairs, p.1.IsWhole ∧ p.2.IsWhole := by
    induction pairs with
    | nil => simpa [Pairs.set] using ⟨hk, hv⟩
    | cons q pairs ih =>
      have hq := hp q List.mem_cons_self
      have hrest := fun p hm => hp p (List.mem_cons_of_mem q hm)
      unfold Pairs.set
      split
      · simpa using ⟨⟨hq.1, hv⟩, fun a b hm => hrest (a, b) hm⟩
      · simpa using ⟨hq, fun a b hm => ih hrest (a, b) hm⟩
  exact hset e.pairs h

theorem isWhole_of_entryOfLine {line : Text} {p : Text × Text} (hwhole : line.IsWhole)
    (h : entryOfLine line = .ok p) : p.1.IsWhole ∧ p.2.IsWhole := by
  have hkey : (splitLine line).1.IsWhole := fun c hc => hwhole c (mem_of_mem_splitLine (.inl hc))
  have hvalue : (splitLine line).2.IsWhole := fun c hc => hwhole c (mem_of_mem_splitLine (.inr hc))
  unfold entryOfLine at h
  cases hv : unescape (splitLine line).2 with
  | error cause => simp [hv, bind, Except.bind] at h
  | ok value =>
    cases hk : unescape (splitLine line).1 with
    | error cause => simp [hv, hk, bind, Except.bind] at h
    | ok key =>
      simp only [hv, hk, bind, Except.bind, pure, Except.pure, Except.ok.injEq] at h
      subst h
      exact ⟨isWhole_of_unescape hkey hk, isWhole_of_unescape hvalue hv⟩

theorem isWhole_of_readLines {lines : List Text} {e e' : Entries} (he : e.IsWhole)
    (hlines : ∀ line ∈ lines, line.IsWhole) (h : readLines e lines = .ok e') : e'.IsWhole := by
  induction lines generalizing e with
  | nil =>
    cases h
    exact he
  | cons line lines ih =>
    rw [readLines] at h
    cases hline : entryOfLine line with
    | error cause => simp [hline, bind, Except.bind] at h
    | ok p =>
      have hp := isWhole_of_entryOfLine (hlines line List.mem_cons_self) hline
      simp only [hline, bind, Except.bind] at h
      exact ih (he.insert hp.1 hp.2) (fun l hl => hlines l (List.mem_cons_of_mem line hl)) h

theorem isWhole_empty : IsWhole empty := by simp [IsWhole, empty]

theorem isWhole_of_ofText {text : Text} {e : Entries} (hwhole : text.IsWhole)
    (h : ofText text = .ok e) : e.IsWhole :=
  isWhole_of_readLines isWhole_empty
    (fun _ hl c hc => hwhole c (mem_of_mem_logicalLines hl c hc)) h

/-- **Written entries are read back exactly, and only those without halves of surrogate pairs are**:
    all of them, no others, with their values and in their order, under any comment and at any
    time. -/
theorem ofText_toText_eq_ok_iff (e : Entries) (comment : Option Text) (now : Moment) :
    ofText (e.toText comment now) = .ok e ↔ e.IsWhole := by
  constructor
  · intro h
    -- whatever was read back came from printable lines
    rw [ofText, logicalLines_toText] at h
    refine isWhole_of_readLines isWhole_empty (fun line hl => ?_) h
    obtain ⟨p, _, rfl⟩ := List.mem_map.mp hl
    exact isWhole_of_isPrintable (isPrintable_entryLine p)
  · exact fun h => ofText_toText h comment now

end Entries

/-! ## 6. Entries as bytes -/

namespace Text

theorem ofLatin1_of_toLatin1? {t : Text} {bytes : Bytes} (h : t.toLatin1? = some bytes) :
    ofLatin1 bytes = t := by
  induction t generalizing bytes with
  | nil =>
    cases h
    rfl
  | cons c t ih =>
    rw [toLatin1?] at h
    split at h
    · next hc =>
      obtain ⟨rest, hrest, rfl⟩ := Option.map_eq_some_iff.mp h
      have hval : (UInt8.ofNat c.val).toNat = c.val := by
        rw [UInt8.toNat_ofNat']
        omega
      exact congrArg₂ List.cons (CodePoint.ext hval) (ih hrest)
    · cases h

theorem isSome_toLatin1? {t : Text} (h : ∀ c ∈ t, c.val < 256) :
    ∃ bytes, t.toLatin1? = some bytes := by
  induction t with
  | nil => exact ⟨[], rfl⟩
  | cons c t ih =>
    obtain ⟨bytes, hbytes⟩ := ih fun d hd => h d (List.mem_cons_of_mem c hd)
    exact ⟨UInt8.ofNat c.val :: bytes, by simp [toLatin1?, h c List.mem_cons_self, hbytes]⟩

theorem val_lt_of_toLatin1? {t : Text} {bytes : Bytes} (h : t.toLatin1? = some bytes) :
    ∀ c ∈ t, c.val < 256 := by
  intro c hc
  rw [← ofLatin1_of_toLatin1? h] at hc
  obtain ⟨b, _, rfl⟩ := List.mem_map.mp hc
  exact b.toNat_lt

theorem isWhole_ofLatin1 (bytes : Bytes) : (ofLatin1 bytes).IsWhole := by
  intro c hc
  obtain ⟨b, _, rfl⟩ := List.mem_map.mp hc
  have hb : b.toNat < 256 := b.toNat_lt
  rw [CodePoint.isSurrogate_eq_false_iff]
  exact .inl (Nat.lt_of_lt_of_le hb (by decide))

end Text

namespace Entries

/-- **Entries that were read from bytes hold no halves of pairs**, even if the bytes escape some. -/
theorem isWhole_of_ofPayload_bytes {bytes : Bytes} {e : Entries}
    (h : ofPayload (.bytes bytes) = .ok e) : e.IsWhole :=
  isWhole_of_ofText (Text.isWhole_ofLatin1 bytes) h

/-- What is stored is read back exactly. -/
theorem ofPayload_of_toBytes? {e : Entries} (h : e.IsWhole) {comment : Option Text} {now : Moment}
    {bytes : Bytes} (hbytes : e.toBytes? comment now = some bytes) :
    ofPayload (.bytes bytes) = .ok e := by
  rw [ofPayload, Text.ofLatin1_of_toLatin1? hbytes]
  exact ofText_toText h comment now

/-- Only the comment can keep entries from having Latin-1 bytes. -/
theorem exists_toBytes? (e : Entries) {comment : Option Text} (now : Moment)
    (h : ∀ c ∈ comment.getD [], c.val < 256) : ∃ bytes, e.toBytes? comment now = some bytes := by
  have hprint {t : Text} (ht : ∀ c ∈ t, IsPrintable c) : ∀ c ∈ t, c.val < 256 := by
    intro c hc
    have := (ht c hc).2
    omega
  refine Text.isSome_toLatin1? fun c hc => ?_
  -- `c` stands in the comment, in the date, in an entry or at the end of a line
  obtain ⟨line, hline, hc⟩ := List.mem_flatMap.mp hc
  rcases List.mem_append.mp hc with hc | hc
  · rcases List.mem_append.mp hline with hline | hline
    · unfold commentLines at hline
      split at hline
      · simp at hline
      · next d rest hcomment =>
        obtain ⟨natural, hnatural, rfl⟩ := List.mem_map.mp hline
        rcases List.mem_cons.mp hc with rfl | hc
        · decide
        · exact h c (hcomment ▸ Text.mem_of_mem_naturalLines hnatural c hc)
    · rcases List.mem_cons.mp hline with rfl | hline
      · rcases List.mem_append.mp hc with hc | hc
        · exact hprint (by decide) c hc
        · exact hprint (Text.isPrintable_dateText now) c hc
      · obtain ⟨p, _, rfl⟩ := List.mem_map.mp hline
        exact hprint (isPrintable_entryLine p) c hc
  · exact (by decide : ∀ c ∈ ("\n" : Text), c.val < 256) c hc

/-- **Entries have Latin-1 bytes exactly if the comment has.** -/
theorem exists_toBytes?_iff (e : Entries) {comment : Option Text} (now : Moment) :
    (∃ bytes, e.toBytes? comment now = some bytes) ↔ ∀ c ∈ comment.getD [], c.val < 256 := by
  refine ⟨fun ⟨bytes, hbytes⟩ c hc => ?_, exists_toBytes? e now⟩
  by_cases hbreak : c = CodePoint.ofChar '\r' ∨ c = CodePoint.ofChar '\n'
  · rcases hbreak with rfl | rfl <;> decide
  -- any other code point of the comment stands on one of its lines
  obtain ⟨hcr, hlf⟩ := not_or.mp hbreak
  obtain ⟨natural, hnatural, hmem⟩ := Text.exists_mem_naturalLines hc hcr hlf
  refine Text.val_lt_of_toLatin1? hbytes c
    (List.mem_flatMap.mpr ⟨CodePoint.ofChar '#' :: natural, ?_, ?_⟩)
  · refine List.mem_append_left _ ?_
    cases hcomment : comment.getD [] with
    | nil =>
      rw [hcomment] at hc
      cases hc
    | cons d rest =>
      rw [hcomment] at hnatural
      simpa [commentLines, hcomment] using hnatural
  · exact List.mem_append_left _ (List.mem_cons_of_mem _ hmem)

end Entries

end IndexChain
