import IndexChain.Text
import Mathlib.Algebra.Group.Nat.Defs
import Mathlib.Data.List.Infix

/-!
# Texts — beginnings, pieces and digits

The searches of `Text` are recursions on code points. Each is given its meaning in terms of
appending here, and nothing later unfolds them: **a text begins with another exactly if it is that
text with something appended** (`afterStart?_eq_some_iff`), and contains one exactly if that text
stands somewhere within it (`contains_iff`). Of numbers it only matters that they can be told apart
when they are written (`ofInt_injective`).
-/

namespace IndexChain.Text

/-! ## 1. Beginnings and occurrences -/

theorem afterStart?_eq_some_iff {start t rest : Text} :
    afterStart? start t = some rest ↔ t = start ++ rest := by
  induction start generalizing t with
  | nil =>
    rw [List.nil_append, afterStart?, Option.some.injEq]
  | cons a start ih =>
    cases t with
    | nil => simp [afterStart?]
    | cons c t =>
      rw [afterStart?, List.cons_append, List.cons.injEq]
      by_cases h : a = c
      · rw [if_pos h, ih]
        exact ⟨fun ht => ⟨h.symm, ht⟩, fun ht => ht.2⟩
      · rw [if_neg h]
        exact ⟨fun ht => (nomatch ht), fun ht => absurd ht.1.symm h⟩

theorem afterStart?_eq_none_iff {start t : Text} :
    afterStart? start t = none ↔ ¬ start <+: t := by
  cases h : afterStart? start t with
  | none =>
    refine ⟨fun _ => ?_, fun _ => rfl⟩
    rintro ⟨rest, rfl⟩
    rw [afterStart?_eq_some_iff.mpr rfl] at h
    cases h
  | some rest =>
    obtain rfl := afterStart?_eq_some_iff.mp h
    exact ⟨fun e => (nomatch e), fun hn => absurd (List.prefix_append start rest) hn⟩

theorem beginsWith_iff {start t : Text} : t.beginsWith start = true ↔ start <+: t := by
  rw [beginsWith]
  cases h : afterStart? start t with
  | none => exact ⟨fun e => (nomatch e), fun hp => absurd hp (afterStart?_eq_none_iff.mp h)⟩
  | some rest =>
    obtain rfl := afterStart?_eq_some_iff.mp h
    exact ⟨fun _ => List.prefix_append start rest, fun _ => rfl⟩

theorem contains_iff {t piece : Text} : t.contains piece = true ↔ piece <:+: t := by
  induction t with
  | nil => simp [contains]
  | cons c t ih => rw [contains, Bool.or_eq_true, beginsWith_iff, ih, List.infix_cons_iff]

/-! ## 2. Pieces -/

/-- There is a piece even of nothing. -/
theorem splitAt_ne_nil (sep : CodePoint) (t : Text) : splitAt sep t ≠ [] := by
  cases t with
  | nil => simp [splitAt]
  | cons c t =>
    rw [splitAt]
    split
    · simp
    · split <;> simp

theorem splitAt_of_not_mem {sep : CodePoint} {t : Text} (h : sep ∉ t) : splitAt sep t = [t] := by
  induction t with
  | nil => rfl
  | cons c t ih =>
    have hc : c ≠ sep := fun e => h (e ▸ List.mem_cons_self)
    rw [splitAt, if_neg hc, ih fun hm => h (List.mem_cons_of_mem c hm)]

/-- A separator ends the pieces before it. -/
theorem splitAt_append (sep : CodePoint) (t rest : Text) :
    splitAt sep (t ++ sep :: rest) = splitAt sep t ++ splitAt sep rest := by
  induction t with
  | nil => simp [splitAt]
  | cons c t ih =>
    rw [List.cons_append, splitAt, splitAt]
    split
    · rw [ih, List.cons_append]
    · rw [ih]
      obtain ⟨piece, pieces, hpieces⟩ := List.exists_cons_of_ne_nil (splitAt_ne_nil sep t)
      simp [hpieces]

theorem splitAt_append_cons {sep : CodePoint} {line : Text} (h : sep ∉ line) (rest : Text) :
    splitAt sep (line ++ sep :: rest) = line :: splitAt sep rest := by
  rw [splitAt_append, splitAt_of_not_mem h, List.singleton_append]

/-- Lines that are each ended by the separator are found again, with an empty piece behind them. -/
theorem splitAt_terminated {sep : CodePoint} {lines : List Text} (h : ∀ line ∈ lines, sep ∉ line) :
    splitAt sep (lines.flatMap (· ++ [sep])) = lines ++ [[]] := by
  induction lines with
  | nil => rfl
  | cons line lines ih =>
    rw [List.flatMap_cons, List.append_assoc, List.singleton_append,
      splitAt_append_cons (h line List.mem_cons_self),
      ih fun l hl => h l (List.mem_cons_of_mem line hl)]
    rfl

theorem mem_of_mem_splitAt {sep : CodePoint} {t piece : Text} (h : piece ∈ splitAt sep t) :
    ∀ c ∈ piece, c ∈ t ∧ c ≠ sep := by
  induction t generalizing piece with
  | nil => simp_all [splitAt]
  | cons d t ih =>
    intro c hc
    rw [splitAt] at h
    split at h
    · rcases List.mem_cons.mp h with rfl | h
      · simp at hc
      · exact ⟨List.mem_cons_of_mem d (ih h c hc).1, (ih h c hc).2⟩
    · next hd =>
      -- `d` belongs to the first of the pieces of `t`, if there are any
      split at h
      · simp only [List.mem_singleton] at h
        subst h
        simp only [List.mem_singleton] at hc
        exact ⟨hc ▸ List.mem_cons_self, hc ▸ hd⟩
      · next first pieces hs =>
        rcases List.mem_cons.mp h with rfl | h
        · rcases List.mem_cons.mp hc with rfl | hc
          · exact ⟨List.mem_cons_self, hd⟩
          · have := ih (hs ▸ List.mem_cons_self) c hc
            exact ⟨List.mem_cons_of_mem d this.1, this.2⟩
        · have := ih (hs ▸ List.mem_cons_of_mem first h) c hc
          exact ⟨List.mem_cons_of_mem d this.1, this.2⟩

/-- Nothing but separators is lost between the pieces. -/
theorem exists_mem_splitAt {sep c : CodePoint} {t : Text} (h : c ∈ t) (hne : c ≠ sep) :
    ∃ piece ∈ splitAt sep t, c ∈ piece := by
  induction t with
  | nil => cases h
  | cons d t ih =>
    rw [splitAt]
    split
    · next hd =>
      have hct : c ∈ t := (List.mem_cons.mp h).resolve_left fun e => hne (e.trans hd)
      obtain ⟨piece, hpiece, hc⟩ := ih hct
      exact ⟨piece, List.mem_cons_of_mem _ hpiece, hc⟩
    · obtain ⟨first, pieces, hs⟩ := List.exists_cons_of_ne_nil (splitAt_ne_nil sep t)
      rw [hs] at ih ⊢
      rcases List.mem_cons.mp h with rfl | hct
      · exact ⟨c :: first, List.mem_cons_self, List.mem_cons_self⟩
      · obtain ⟨piece, hpiece, hc⟩ := ih hct
        rcases List.mem_cons.mp hpiece with rfl | hpiece
        · exact ⟨d :: piece, List.mem_cons_self, List.mem_cons_of_mem d hc⟩
        · exact ⟨piece, List.mem_cons_of_mem _ hpiece, hc⟩

theorem cutAt_of_not_mem {sep : CodePoint} {t : Text} (h : sep ∉ t) : cutAt sep t = none := by
  induction t with
  | nil => rfl
  | cons c t ih =>
    have hc : c ≠ sep := fun e => h (e ▸ List.mem_cons_self)
    rw [cutAt, if_neg hc, ih fun hm => h (List.mem_cons_of_mem c hm)]
    rfl

/-- A text is cut at the first separator. -/
theorem cutAt_append {sep : CodePoint} {t : Text} (h : sep ∉ t) (rest : Text) :
    cutAt sep (t ++ sep :: rest) = some (t, rest) := by
  induction t with
  | nil => simp [cutAt]
  | cons c t ih =>
    have hc : c ≠ sep := fun e => h (e ▸ List.mem_cons_self)
    rw [List.cons_append, cutAt, if_neg hc, ih fun hm => h (List.mem_cons_of_mem c hm)]
    rfl

theorem dropWhile_of_head? {p : CodePoint → Bool} {t : Text} (h : ∀ c ∈ t.head?, p c = false) :
    t.dropWhile p = t := by
  cases t with
  | nil => rfl
  | cons c t => exact List.dropWhile_cons_of_neg (by simp [h c rfl])

/-- Nothing is stripped where there is no blank at either end. -/
theorem strip_eq_self {t : Text} (hfirst : ∀ c ∈ t.head?, c.isWhitespace = false)
    (hlast : ∀ c ∈ t.getLast?, c.isWhitespace = false) : t.strip = t := by
  rw [← List.head?_reverse] at hlast
  rw [strip, dropWhile_of_head? hfirst, trimEnd, dropWhile_of_head? hlast, List.reverse_reverse]

/-! ## 3. Digits -/

theorem val_of_mem_ofNat {n : Nat} {c : CodePoint} (h : c ∈ ofNat n) : 48 ≤ c.val ∧ c.val ≤ 57 := by
  obtain ⟨d, hd, rfl⟩ := List.mem_map.mp h
  have hdigit := Nat.isDigit_of_mem_toDigits (by decide) (by decide) hd
  simp only [Char.isDigit, Bool.and_eq_true, decide_eq_true_eq, UInt32.le_iff_toNat_le] at hdigit
  have hval : (CodePoint.ofChar d).val = d.val.toNat := rfl
  have hlow : ('0' : Char).val.toNat = 48 := rfl
  have hhigh : ('9' : Char).val.toNat = 57 := rfl
  rw [hval]
  omega

/-- An integer is written in digits, and a minus sign. -/
theorem val_of_mem_ofInt {n : Int} {c : CodePoint} (h : c ∈ ofInt n) :
    c.val = 45 ∨ (48 ≤ c.val ∧ c.val ≤ 57) := by
  cases n with
  | ofNat n => exact .inr (val_of_mem_ofNat h)
  | negSucc n =>
    rcases List.mem_cons.mp h with rfl | h
    · exact .inl rfl
    · exact .inr (val_of_mem_ofNat h)

theorem ofChar_injective : Function.Injective CodePoint.ofChar := by
  intro c d h
  have hval : c.toNat = d.toNat := congrArg CodePoint.val h
  exact Char.toNat_inj.mp hval

theorem ofNat_injective : Function.Injective ofNat := by
  -- the digits of a number can be read back
  have hread : Function.LeftInverse (fun ds => Nat.ofDigitChars 10 ds 0) (Nat.toDigits 10) :=
    fun _ => Nat.ofDigitChars_ten_toDigits
  exact (List.map_injective_iff.mpr ofChar_injective).comp hread.injective

/-- A minus sign is no digit. -/
theorem ofNat_ne_minus_cons (n : Nat) (t : Text) : ofNat n ≠ CodePoint.ofChar '-' :: t := by
  intro h
  have hdigit := val_of_mem_ofNat (n := n) (h ▸ List.mem_cons_self)
  exact absurd hdigit.1 (by decide)

/-- **Different integers are written differently.** -/
theorem ofInt_injective : Function.Injective ofInt := by
  intro m n h
  cases m with
  | ofNat m =>
    cases n with
    | ofNat n => exact congrArg Int.ofNat (ofNat_injective h)
    | negSucc n => exact absurd h (ofNat_ne_minus_cons m _)
  | negSucc m =>
    cases n with
    | ofNat n => exact absurd h.symm (ofNat_ne_minus_cons n _)
    | negSucc n =>
      have hsucc : m + 1 = n + 1 := ofNat_injective (List.cons.inj h).2
      exact congrArg Int.negSucc (Nat.succ.inj hsucc)

theorem digitsValue_concat (ds : List Nat) (d : Nat) :
    digitsValue (ds ++ [d]) = 10 * digitsValue ds + d := by
  rw [digitsValue, List.foldl_append, List.foldl_cons, List.foldl_nil, ← digitsValue]

theorem digitsValue_append (ds ds' : List Nat) :
    digitsValue (ds ++ ds') = 10 ^ ds'.length * digitsValue ds + digitsValue ds' := by
  induction ds' using List.reverseRecOn with
  | nil => simp [digitsValue]
  | append_singleton ds' d ih =>
    rw [← List.append_assoc, digitsValue_concat, digitsValue_concat, ih, List.length_append,
      List.length_singleton, Nat.pow_succ', Nat.mul_add, Nat.mul_assoc, Nat.add_assoc]

theorem digitsValue_lt {ds : List Nat} (h : ∀ d ∈ ds, d < 10) :
    digitsValue ds < 10 ^ ds.length := by
  induction ds using List.reverseRecOn with
  | nil => simp [digitsValue]
  | append_singleton ds d ih =>
    have hd : d < 10 := h d (by simp)
    have hds := ih fun d hd => h d (List.mem_append_left _ hd)
    rw [digitsValue_concat, List.length_append, List.length_singleton, Nat.pow_succ]
    omega

end IndexChain.Text
