import Mathlib.Data.List.Basic
import IndexChain.Proofs.Entries.Breaks

/-!
# Seams — a text that is read in two parts

Reading goes from line to line, and what it keeps of the lines behind it is little: the entries so
far, and what a continued line has left to be continued (`goesOn`). So a text can be cut at the end
of a line, and **its entries are those of its first part, brought up to date by those of the
second** (`ofText_append_break`), unless the first part leaves something open.

* Lines: what earlier lines make of later ones depends on what is left open alone
  (`joinLines_append`).
* Entries: reading on from entries is the same as reading afresh and updating them
  (`readLines_eq_update`). This is where a key that comes again keeps its place, and why `update` is
  described by its keys and by its values (`keys_update`, `get?_update`).

## What is left open

A natural line that ends in an odd number of backslashes, but for a comment. Whether a line is a
comment depends on the lines before it, for a line that continues another one is none. `leftOpen`
follows them.
-/

namespace IndexChain

/-- Distinct keys in their order and the value of each say all of a list of pairs. -/
theorem Pairs.eq_filterMap {κ α : Type} [DecidableEq κ] {pairs : List (κ × α)}
    (h : (pairs.map Prod.fst).Nodup) :
    pairs = (pairs.map Prod.fst).filterMap fun k => (Pairs.get? k pairs).map (k, ·) := by
  have hself : ∀ p ∈ pairs, ((Pairs.get? p.1 pairs).map (p.1, ·)) = some p := by
    intro p hp
    rw [Pairs.get?_of_mem h hp]
    rfl
  rw [List.filterMap_map]
  calc pairs = pairs.filterMap some := List.filterMap_some.symm
    _ = _ := List.filterMap_congr fun p hp => (hself p hp).symm

namespace Entries

/-! ## 1. Entries brought up to date -/

/-- The keys, in their order. -/
def keys (e : Entries) : List Text := e.pairs.map Prod.fst

variable {e f : Entries} {key value : Text}

theorem ext_keys (hkeys : e.keys = f.keys) (hget : ∀ key, e.get? key = f.get? key) : e = f := by
  apply Entries.ext
  rw [Pairs.eq_filterMap e.nodup_keys, Pairs.eq_filterMap f.nodup_keys]
  change e.keys.filterMap (fun k => (e.get? k).map (k, ·)) = f.keys.filterMap fun k =>
    (f.get? k).map (k, ·)
  simp only [hkeys, hget]

theorem keys_insert (e : Entries) (key value : Text) :
    (e.insert key value).keys = if key ∈ e.keys then e.keys else e.keys ++ [key] := by
  have hset := Pairs.keys_set key value e.pairs
  by_cases h : key ∈ e.keys
  · rw [if_pos h]
    exact hset.trans (if_pos h)
  · rw [if_neg h]
    exact hset.trans (if_neg h)

theorem get?_eq_none_iff : e.get? key = none ↔ key ∉ e.keys := Pairs.get?_eq_none_iff

theorem keys_foldl_insert {pairs : List (Text × Text)} (h : (pairs.map Prod.fst).Nodup)
    (e : Entries) :
    (pairs.foldl (fun e p => e.insert p.1 p.2) e).keys =
      e.keys ++ (pairs.map Prod.fst).filter (· ∉ e.keys) := by
  induction pairs generalizing e with
  | nil => simp
  | cons p pairs ih =>
    obtain ⟨hp, hpairs⟩ := List.nodup_cons.mp h
    rw [List.foldl_cons, ih hpairs, keys_insert]
    by_cases hmem : p.1 ∈ e.keys
    · simp [hmem]
    · -- the key of `p` is none of the keys behind it
      have hrest : (pairs.map Prod.fst).filter (· ∉ e.keys ++ [p.1]) = (pairs.map Prod.fst).filter
          (· ∉ e.keys) := by
        apply List.filter_congr
        intro k hk
        have hne : k ≠ p.1 := fun heq => hp (heq ▸ hk)
        simp [hne]
      rw [if_neg hmem, hrest, List.map_cons, List.filter_cons_of_pos (by simpa using hmem),
        List.append_assoc, List.singleton_append]

theorem get?_foldl_insert {pairs : List (Text × Text)} (h : (pairs.map Prod.fst).Nodup)
    (e : Entries) (key : Text) :
    (pairs.foldl (fun e p => e.insert p.1 p.2) e).get? key =
      (Pairs.get? key pairs).or (e.get? key) := by
  induction pairs generalizing e with
  | nil => rfl
  | cons p pairs ih =>
    obtain ⟨hp, hpairs⟩ := List.nodup_cons.mp h
    rw [List.foldl_cons, ih hpairs, get?_insert, Pairs.get?]
    split
    · next heq =>
      rw [← heq, Pairs.get?_eq_none_iff.mpr hp]
      rfl
    · rfl

/-- **The keys stay where they are**, and new ones come after them. -/
theorem keys_update (e f : Entries) : (e.update f).keys = e.keys ++ f.keys.filter (· ∉ e.keys) :=
  keys_foldl_insert f.nodup_keys e

/-- **The values of the second entries win.** -/
theorem get?_update (e f : Entries) (key : Text) :
    (e.update f).get? key = (f.get? key).or (e.get? key) :=
  get?_foldl_insert f.nodup_keys e key

theorem update_insert (e f : Entries) (key value : Text) :
    e.update (f.insert key value) = (e.update f).insert key value := by
  apply ext_keys
  · rw [keys_update, keys_insert, keys_insert, keys_update]
    by_cases hf : key ∈ f.keys
    · by_cases he : key ∈ e.keys <;> simp [hf, he]
    · by_cases he : key ∈ e.keys <;> simp [hf, he, List.filter_append]
  · intro key'
    rw [get?_update, get?_insert, get?_insert, get?_update]
    split <;> rfl

/-! ## 2. Lines -/

/-- What a natural line leaves to be continued, after what earlier ones have left. -/
def goesOn (pending : Option Text) (raw : Text) : Option Text :=
  let line := raw.dropWhile isBlank
  if pending.isNone && isSkipped line then none
  else if isContinued line then some (pending.getD [] ++ line.dropLast)
  else none

/-- What a text leaves to be continued; nothing unless its last natural line leaves a continuation
open. -/
def leftOpen (text : Text) : Option Text := text.naturalLines.foldl goesOn none

/-- One natural line makes a logical line or none, and leaves the rest to what comes. -/
theorem joinLines_cons (pending : Option Text) (raw : Text) :
    ∃ made, ∀ rest, joinLines pending (raw :: rest) =
      made ++ joinLines (goesOn pending raw) rest := by
  by_cases hskip : (pending.isNone && isSkipped (raw.dropWhile isBlank)) = true
  · exact ⟨[], fun rest => by simp [joinLines, goesOn, hskip]⟩
  · by_cases hopen : isContinued (raw.dropWhile isBlank) = true
    · exact ⟨[], fun rest => by simp [joinLines, goesOn, hskip, hopen]⟩
    · exact ⟨[pending.getD [] ++ raw.dropWhile isBlank],
        fun rest => by simp [joinLines, goesOn, hskip, hopen]⟩

/-- **Of the lines behind it reading keeps nothing but what they left open.** -/
theorem joinLines_append (pending : Option Text) (raws : List Text) :
    ∃ made, ∀ rest, joinLines pending (raws ++ rest) =
      made ++ joinLines (raws.foldl goesOn pending) rest := by
  induction raws generalizing pending with
  | nil => exact ⟨[], fun rest => rfl⟩
  | cons raw raws ih =>
    obtain ⟨first, hfirst⟩ := joinLines_cons pending raw
    obtain ⟨made, hmade⟩ := ih (goesOn pending raw)
    refine ⟨first ++ made, fun rest => ?_⟩
    rw [List.cons_append, hfirst, hmade, List.append_assoc, List.foldl_cons]

theorem logicalLines_append_break {t : Text} (hcr : t.getLast? ≠ some (CodePoint.ofChar '\r'))
    (hopen : leftOpen t = none) (rest : Text) :
    logicalLines (t ++ "\n" ++ rest) = logicalLines t ++ logicalLines rest := by
  obtain ⟨made, hmade⟩ := joinLines_append none t.naturalLines
  have hend : joinLines none t.naturalLines = made := by
    have hnil := hmade []
    rwa [List.append_nil, ← leftOpen, hopen, joinLines, List.append_nil] at hnil
  rw [logicalLines, Text.naturalLines_append hcr, hmade, ← leftOpen, hopen, ← hend]
  rfl

/-! ## 3. Entries on lines -/

theorem readLines_append (e : Entries) (lines rest : List Text) :
    readLines e (lines ++ rest) = readLines e lines >>= fun e => readLines e rest := by
  induction lines generalizing e with
  | nil => rfl
  | cons line lines ih =>
    rw [List.cons_append, readLines, readLines]
    cases entryOfLine line with
    | error cause => rfl
    | ok p => exact ih (e.insert p.1 p.2)

theorem readLines_update (e f : Entries) (lines : List Text) :
    readLines (e.update f) lines = (readLines f lines).map e.update := by
  induction lines generalizing f with
  | nil => rfl
  | cons line lines ih =>
    rw [readLines, readLines]
    cases entryOfLine line with
    | error cause => rfl
    | ok p =>
      show readLines ((e.update f).insert p.1 p.2) lines = _
      rw [← update_insert]
      exact ih (f.insert p.1 p.2)

/-- Entries that are read on from others bring them up to date. -/
theorem readLines_eq_update (e : Entries) (lines : List Text) :
    readLines e lines = (readLines empty lines).map e.update :=
  readLines_update e empty lines

/-! ## 4. Texts -/

variable {first second : Text}

theorem ofText_append (hcr : first.getLast? ≠ some (CodePoint.ofChar '\r'))
    (hopen : leftOpen first = none) :
    ofText (first ++ "\n" ++ second) = do return (← ofText first).update (← ofText second) := by
  rw [ofText, logicalLines_append_break hcr hopen, readLines_append, ← ofText]
  cases ofText first with
  | error cause => rfl
  | ok e =>
    show readLines e (logicalLines second) = _
    rw [readLines_eq_update, ← ofText]
    cases ofText second <;> rfl

/-- **Reading is compositional at the ends of lines.** If a text does not end in CR and leaves
nothing open, it can be put in front of another one with an LF between them. The whole is refused
exactly if one of the two is, and otherwise its entries are those of the first brought up to date by
those of the second: values of the second win, and keys of the first keep their places. -/
theorem ofText_append_break (hcr : first.getLast? ≠ some (CodePoint.ofChar '\r'))
    (hopen : leftOpen first = none) :
    ((∃ cause, ofText (first ++ "\n" ++ second) = .error cause) ↔
      (∃ cause, ofText first = .error cause) ∨ ∃ cause, ofText second = .error cause) ∧
    ∀ e f, ofText first = .ok e → ofText second = .ok f →
      ofText (first ++ "\n" ++ second) = .ok (e.update f) ∧
      (∀ key, (e.update f).get? key = (f.get? key).or (e.get? key)) ∧
      (e.update f).keys = e.keys ++ f.keys.filter (· ∉ e.keys) := by
  rw [ofText_append hcr hopen]
  constructor
  · cases ofText first with
    | error cause => simp [bind, Except.bind]
    | ok e =>
      cases ofText second with
      | error cause => simp [bind, Except.bind]
      | ok f => simp [bind, Except.bind, pure, Except.pure]
  · intro e f hfirst hsecond
    rw [hfirst, hsecond]
    exact ⟨rfl, get?_update e f, keys_update e f⟩

/-- A continued line, and a comment that ends in a backslash. -/
def front : Text := "a=1\\\r\n  2\rb=0\n# no more\\"

/-- A new key, and a key that was there, on two lines. -/
def back : Text := "c=3\na:\\\n4"

theorem ofText_append_break_front :
    front.getLast? ≠ some (CodePoint.ofChar '\r') ∧ leftOpen front = none ∧
      ∃ e f, ofText front = .ok e ∧ ofText back = .ok f ∧
      ofText (front ++ "\n" ++ back) = .ok (e.update f) ∧
        (e.update f).pairs = ([("a", "4"), ("b", "0"), ("c", "3")] : List (Text × Text)) := by
  have hcr : front.getLast? ≠ some (CodePoint.ofChar '\r') := by decide +kernel
  have hopen : leftOpen front = none := by decide +kernel
  have hfront : (ofText front).map (·.pairs) = .ok [("a", "12"), ("b", "0")] := by decide +kernel
  have hback : (ofText back).map (·.pairs) = .ok [("c", "3"), ("a", "4")] := by decide +kernel
  have hwhole : (ofText (front ++ "\n" ++ back)).map (·.pairs) =
      .ok [("a", "4"), ("b", "0"), ("c", "3")] := by
    decide +kernel
  cases he : ofText front with
  | error cause => simp [he, Except.map] at hfront
  | ok e =>
    cases hf : ofText back with
    | error cause => simp [hf, Except.map] at hback
    | ok f =>
      obtain ⟨hupdate, -, -⟩ := (ofText_append_break hcr hopen).2 e f he hf
      rw [hupdate] at hwhole
      exact ⟨hcr, hopen, e, f, rfl, rfl, hupdate, Except.ok.inj hwhole⟩

end Entries

end IndexChain
