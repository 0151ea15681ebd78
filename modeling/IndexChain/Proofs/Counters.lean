import IndexChain.Proofs.Opening

/-!
# Counters — which texts count, and what the others do to a plan

The counters in a manifest are texts that anybody may have written. **A text counts if it writes an
integer** (`Counter.Writes`): decimal digits, behind a sign or none. A last counter that writes none
is as good as absent, a marker that writes none is ignored, and a plan that needed them becomes one
for the whole index (`Plan.Planned`).

There is one exception. An integer with more digits than are ever read is neither read nor passed
over, and then there is no plan at all. `planned_iff_countsShort` says that this is the only one:
between two manifests of one index, with times of publication in the calendar, **there is a plan
exactly if no counter has more digits than are read** (`Manifest.CountsShort`).
-/

namespace IndexChain

/-! ## 1. Written integers -/

namespace Counter

def IsDigit (c : CodePoint) : Prop := 0x30 ≤ c.val ∧ c.val ≤ 0x39

instance (c : CodePoint) : Decidable (IsDigit c) := inferInstanceAs (Decidable (_ ∧ _))

/-- A word of decimal digits, at least one. -/
def IsNumeral (word : Text) : Prop := word ≠ [] ∧ ∀ c ∈ word, IsDigit c

/-- The number that a word of decimal digits stands for. -/
def numeralValue (word : Text) : Nat := word.foldl (fun n c => 10 * n + (c.val - 0x30)) 0

/-- The texts that write an integer, and which one. -/
inductive Writes : Text → Int → Prop
  | bare {word : Text} : IsNumeral word → Writes word (numeralValue word)
  | plus {word : Text} : IsNumeral word → Writes (CodePoint.ofChar '+' :: word) (numeralValue word)
  | minus {word : Text} : IsNumeral word →
    Writes (CodePoint.ofChar '-' :: word) (-numeralValue word)

theorem asciiDigit?_eq_some_iff {c : CodePoint} {d : Nat} :
    c.asciiDigit? = some d ↔ IsDigit c ∧ d = c.val - 0x30 := by
  unfold CodePoint.asciiDigit? IsDigit
  simp only [Bool.and_eq_true, decide_eq_true_eq]
  split
  · rename_i hrange
    simp [hrange, eq_comm]
  · rename_i hrange
    simp [hrange]

theorem digits?_eq_some_iff {t : Text} {ds : List Nat} :
    digits? t = some ds ↔ (∀ c ∈ t, IsDigit c) ∧ ds = t.map fun c => c.val - 0x30 := by
  induction t generalizing ds with
  | nil => simp [digits?, eq_comm]
  | cons c t ih =>
    rw [digits?, List.forall_mem_cons, List.map_cons]
    cases hc : c.asciiDigit? with
    | none =>
      have hnot : ¬IsDigit c := by
        intro hdigit
        have hsome := asciiDigit?_eq_some_iff.mpr ⟨hdigit, rfl⟩
        rw [hc] at hsome
        cases hsome
      simp [hnot]
    | some d =>
      obtain ⟨hdigit, rfl⟩ := asciiDigit?_eq_some_iff.mp hc
      cases ht : digits? t with
      | none =>
        have hnot : ¬∀ c ∈ t, IsDigit c := by
          intro hall
          have hsome := ih.mpr ⟨hall, rfl⟩
          rw [ht] at hsome
          cases hsome
        simp [hnot]
      | some rest =>
        obtain ⟨hall, rfl⟩ := ih.mp ht
        simp only [Option.some.injEq]
        exact ⟨fun h => ⟨⟨hdigit, hall⟩, h.symm⟩, fun h => h.2.symm⟩

theorem digitsValue_map (word : Text) :
    Text.digitsValue (word.map fun c => c.val - 0x30) = numeralValue word := by
  unfold Text.digitsValue numeralValue
  rw [List.foldl_map]

/-- A sign is no digit, so a text that begins with a digit has none. -/
theorem splitSign_of_isNumeral {word : Text} (h : IsNumeral word) :
    splitSign word = (false, word) := by
  obtain ⟨hne, hdigits⟩ := h
  cases word with
  | nil => exact absurd rfl hne
  | cons c rest =>
    have hdigit : IsDigit c := hdigits c List.mem_cons_self
    have hminus : c ≠ CodePoint.ofChar '-' := by
      rintro rfl
      exact absurd hdigit.1 (by decide)
    have hplus : c ≠ CodePoint.ofChar '+' := by
      rintro rfl
      exact absurd hdigit.1 (by decide)
    rw [splitSign, if_neg hminus, if_neg hplus]

/-- The integer of a sign and a word. -/
def signed (negative : Bool) (word : Text) : Int :=
  if negative then -numeralValue word else numeralValue word

/-- What a text writes is the word behind its sign. -/
theorem writes_iff {t : Text} {n : Int} :
    Writes t n ↔ IsNumeral (splitSign t).2 ∧ n = signed (splitSign t).1 (splitSign t).2 := by
  constructor
  · intro h
    cases h with
    | bare hword =>
      rw [splitSign_of_isNumeral hword]
      exact ⟨hword, rfl⟩
    | plus hword => exact ⟨hword, rfl⟩
    | minus hword => exact ⟨hword, rfl⟩
  · rintro ⟨hword, rfl⟩
    cases t with
    | nil => exact absurd rfl hword.1
    | cons c rest =>
      unfold splitSign at hword ⊢
      by_cases hminus : c = CodePoint.ofChar '-'
      · subst hminus
        exact .minus hword
      · by_cases hplus : c = CodePoint.ofChar '+'
        · subst hplus
          exact .plus hword
        · simp only [if_neg hminus, if_neg hplus] at hword ⊢
          exact .bare hword

/-- The outcomes of reading a counter. -/
inductive Read (t : Text) : Except Fault (Option Int) → Prop
  | absent : (∀ n, ¬Writes t n) → Read t (.ok none)
  | counted {n : Int} : Writes t n → IsShort t → Read t (.ok (some n))
  | overlong {n : Int} : Writes t n → ¬IsShort t → Read t (.error (.invalidValue none))

theorem isShort_iff_of_digits? {t : Text} {ds : List Nat} (h : digits? (splitSign t).2 = some ds) :
    IsShort t ↔ ds.length ≤ digitLimit := by
  unfold IsShort
  rw [h]
  simp

/-- Leading zeros count. -/
theorem isShort_iff_of_isNumeral {word : Text} (h : IsNumeral word) :
    IsShort word ↔ word.length ≤ digitLimit := by
  have hdigits := digits?_eq_some_iff.mpr ⟨h.2, rfl⟩
  have hsplit : (splitSign word).2 = word := congrArg Prod.snd (splitSign_of_isNumeral h)
  rw [← hsplit] at hdigits
  rw [isShort_iff_of_digits? hdigits, List.length_map, hsplit]

theorem read_ofText (t : Text) : Read t (ofText t) := by
  unfold ofText
  dsimp only
  cases hds : digits? (splitSign t).2 with
  | none =>
    -- what is no digit can be in no written integer
    refine .absent fun n h => ?_
    have hsome := digits?_eq_some_iff.mpr ⟨(writes_iff.mp h).1.2, rfl⟩
    rw [hds] at hsome
    cases hsome
  | some ds =>
    have hshort := isShort_iff_of_digits? hds
    obtain ⟨hdigits, hvalues⟩ := digits?_eq_some_iff.mp hds
    cases ds with
    | nil =>
      refine .absent fun n h => ?_
      exact (writes_iff.mp h).1.1 (List.map_eq_nil_iff.mp hvalues.symm)
    | cons d ds =>
      have hword : IsNumeral (splitSign t).2 := by
        refine ⟨fun hnil => ?_, hdigits⟩
        rw [hnil] at hvalues
        cases hvalues
      have hwrites : Writes t (signed (splitSign t).1 (splitSign t).2) :=
        writes_iff.mpr ⟨hword, rfl⟩
      dsimp only
      split
      · rename_i hlimit
        exact .overlong hwrites fun h => absurd (hshort.mp h) (by omega)
      · rename_i hlimit
        rw [hvalues, digitsValue_map]
        exact .counted hwrites (hshort.mpr (by omega))

/-- A text writes one integer at most. -/
theorem Writes.unique {t : Text} {m n : Int} (hm : Writes t m) (hn : Writes t n) : m = n :=
  (writes_iff.mp hm).2.trans (writes_iff.mp hn).2.symm

theorem ofText_eq_some_iff {t : Text} {n : Int} (hshort : IsShort t) :
    ofText t = .ok (some n) ↔ Writes t n := by
  have hread := read_ofText t
  generalize ofText t = outcome at hread ⊢
  cases hread with
  | absent hnone => simp [hnone n]
  | @counted m hwrites _ =>
    rw [Except.ok.injEq, Option.some.injEq]
    exact ⟨fun h => h ▸ hwrites, hwrites.unique⟩
  | overlong _ hlong => exact absurd hshort hlong

theorem fault_of_ofText {t : Text} {fault : Fault} (h : ofText t = .error fault) :
    fault = .invalidValue none := by
  have hread := read_ofText t
  rw [h] at hread
  cases hread
  rfl

end Counter

/-! ## 2. The counters of a manifest -/

namespace Entries

/-- The last counter that the entries write. -/
def Counts (e : Entries) (n : Int) : Prop :=
  ∃ t, e.get? Manifest.lastIncrementalKey = some t ∧ Counter.Writes t n

/-- A marker among the entries writes the counter. -/
def Marks (e : Entries) (n : Int) : Prop :=
  ∃ p ∈ e.pairs, p.1.beginsWith Manifest.markerKeyStem = true ∧ Counter.Writes p.2 n

/-- Two manifests name the same chain. -/
def SameChain (copied published : Entries) : Prop :=
  ∃ chain, copied.get? Manifest.chainIdKey = some chain ∧
  published.get? Manifest.chainIdKey = some chain

end Entries

namespace Manifest

/-- No marker has more digits than are ever read. -/
def MarkersShort (e : Entries) : Prop :=
  ∀ p ∈ e.pairs, p.1.beginsWith markerKeyStem = true → Counter.IsShort p.2

/-- Nor has the last counter. -/
def LastShort (e : Entries) : Prop := ∀ t, e.get? lastIncrementalKey = some t → Counter.IsShort t

/-- No counter has more digits than are ever read. -/
def CountsShort (e : Entries) : Prop := MarkersShort e ∧ LastShort e

/-- The time of publication is in the calendar, if it is one at all. -/
def InCalendar (e : Entries) : Prop :=
  ∀ t, e.get? timestampKey = some t → Moment.ofStamp t ≠ .error .outOfRange

theorem isLegible_iff {e : Entries} : IsLegible e ↔ CountsShort e ∧ InCalendar e :=
  ⟨fun h => ⟨⟨h.markers, h.lastIncremental⟩, h.timestamp⟩, fun h => ⟨h.1.1, h.1.2, h.2⟩⟩

theorem mem_addMarker {m n : Int} {markers : List Int} :
    m ∈ addMarker n markers ↔ m = n ∨ m ∈ markers := by
  induction markers with
  | nil => simp [addMarker]
  | cons k rest ih =>
    unfold addMarker
    split
    · exact List.mem_cons
    · split
      · rename_i heq
        simp [heq]
      · rw [List.mem_cons, List.mem_cons, ih]
        exact or_left_comm

theorem mem_of_readMarkers {pairs : List (Text × Text)} {markers ms : List Int} {n : Int}
    (h : readMarkers markers pairs = .ok ms) :
    n ∈ ms ↔ n ∈ markers ∨
      ∃ p ∈ pairs, p.1.beginsWith markerKeyStem = true ∧ Counter.ofText p.2 = .ok (some n) := by
  induction pairs generalizing markers with
  | nil =>
    cases h
    simp
  | cons p rest ih =>
    obtain ⟨key, value⟩ := p
    rw [List.exists_mem_cons_iff, ← or_assoc]
    rw [readMarkers] at h
    by_cases hkey : key.beginsWith markerKeyStem = true
    · simp only [hkey, if_true] at h
      cases hvalue : Counter.ofText value with
      | error fault =>
        rw [hvalue] at h
        cases h
      | ok counted =>
        rw [hvalue] at h
        cases counted with
        | none =>
          rw [ih h]
          simp
        | some m =>
          have hn : m = n ↔ n = m := eq_comm
          rw [ih h, mem_addMarker, @or_comm (n = m)]
          simp only [hkey, true_and, Except.ok.injEq, Option.some.injEq, hn]
    · simp only [hkey] at h
      rw [ih h]
      simp [hkey]

theorem fault_of_readMarkers {pairs : List (Text × Text)} {markers : List Int} {fault : Fault}
    (h : readMarkers markers pairs = .error fault) : fault = .invalidValue none := by
  induction pairs generalizing markers with
  | nil => cases h
  | cons p rest ih =>
    obtain ⟨key, value⟩ := p
    rw [readMarkers] at h
    by_cases hkey : key.beginsWith markerKeyStem = true
    · simp only [hkey, if_true] at h
      cases hvalue : Counter.ofText value with
      | error fault' =>
        rw [hvalue] at h
        cases h
        exact Counter.fault_of_ofText hvalue
      | ok counted =>
        rw [hvalue] at h
        cases counted with
        | none => exact ih h
        | some m => exact ih h
    · simp only [hkey] at h
      exact ih h

theorem fault_of_ofText? {t : Option Text} {fault : Fault} (h : Counter.ofText? t = .error fault) :
    fault = .invalidValue none := by
  cases t with
  | none => cases h
  | some t => exact Counter.fault_of_ofText h

/-- The outcomes of making a manifest, by the entries that stand against it in the order in which
they are come upon. -/
inductive Made (e : Entries) : Except Fault Manifest → Prop
  | overlongMarker : ¬MarkersShort e → Made e (.error (.invalidValue none))
  | offCalendar : MarkersShort e → ¬InCalendar e → Made e (.error .dateOverflow)
  | overlongLast : MarkersShort e → InCalendar e → ¬LastShort e →
    Made e (.error (.invalidValue none))
  | made {m : Manifest} : MarkersShort e → InCalendar e → LastShort e → ofEntries e = .ok m →
    Made e (.ok m)

theorem fault_of_readStamp {stamp : Option Text} {fault : Fault}
    (h : readStamp stamp = .error fault) : fault = .dateOverflow := by
  cases stamp with
  | none => cases h
  | some t =>
    unfold readStamp at h
    rcases hstamp : Moment.ofStamp t with (_ | _) | m
    · simp [hstamp] at h
    · simp [hstamp] at h
      exact h.symm
    · simp [hstamp] at h

theorem made_ofEntries (e : Entries) : Made e (ofEntries e) := by
  have hmarkers : (∃ ms, readMarkers [] e.pairs = .ok ms) ↔ MarkersShort e :=
    exists_readMarkers_iff []
  have hstamp : (∃ at?, readStamp (e.get? timestampKey) = .ok at?) ↔ InCalendar e :=
    exists_readStamp_iff
  have hlast : (∃ n, Counter.ofText? (e.get? lastIncrementalKey) = .ok n) ↔ LastShort e :=
    Counter.exists_ofText?_iff
  cases hread : readMarkers [] e.pairs with
  | error fault =>
    have hm : ofEntries e = .error fault := by simp [ofEntries, hread, bind, Except.bind]
    rw [hread] at hmarkers
    rw [hm, fault_of_readMarkers hread]
    exact .overlongMarker fun h => by simpa using hmarkers.mpr h
  | ok markers =>
    have hshort : MarkersShort e := hmarkers.mp ⟨markers, hread⟩
    cases hat : readStamp (e.get? timestampKey) with
    | error fault =>
      have hm : ofEntries e = .error fault := by simp [ofEntries, hread, hat, bind, Except.bind]
      rw [hat] at hstamp
      rw [hm, fault_of_readStamp hat]
      exact .offCalendar hshort fun h => by simpa using hstamp.mpr h
    | ok publishedAt =>
      have hcalendar : InCalendar e := hstamp.mp ⟨publishedAt, hat⟩
      cases hcounter : Counter.ofText? (e.get? lastIncrementalKey) with
      | error fault =>
        have hm : ofEntries e = .error fault := by
          simp [ofEntries, hread, hat, hcounter, bind, Except.bind]
        rw [hcounter] at hlast
        rw [hm, fault_of_ofText? hcounter]
        exact .overlongLast hshort hcalendar fun h => by simpa using hlast.mpr h
      | ok last =>
        have hm := ofEntries_eq_ok_iff.mpr ⟨markers, publishedAt, last, hread, hat, hcounter, rfl⟩
        rw [hm]
        exact .made hshort hcalendar (hlast.mp ⟨last, hcounter⟩) hm

/-- Of entries with a time in the calendar, only a counter that is too long makes no manifest. -/
theorem exists_ofEntries_of_countsShort {e : Entries} (h : InCalendar e) (hshort : CountsShort e) :
    ∃ m, ofEntries e = .ok m :=
  exists_ofEntries_iff.mpr (isLegible_iff.mpr ⟨hshort, h⟩)

theorem ofEntries_of_not_countsShort {e : Entries} (h : InCalendar e) (hlong : ¬CountsShort e) :
    ofEntries e = .error (.invalidValue none) := by
  have hmade := made_ofEntries e
  generalize ofEntries e = outcome at hmade ⊢
  cases hmade with
  | overlongMarker | overlongLast => rfl
  | offCalendar _ hnot => exact absurd h hnot
  | made hmarkers _ hlast _ => exact absurd ⟨hmarkers, hlast⟩ hlong

section Meaning

variable {e e' : Entries} {m m' : Manifest} {n : Int}

theorem isLegible_of_ofEntries (hm : ofEntries e = .ok m) : IsLegible e :=
  exists_ofEntries_iff.mp ⟨m, hm⟩

/-- The last counter that is read is the one that is written. -/
theorem lastIncremental_iff (hm : ofEntries e = .ok m) :
    m.lastIncremental = some n ↔ e.Counts n := by
  have hlast := (ofEntries_eq_ok hm).2.2.2
  have hshort := (isLegible_of_ofEntries hm).lastIncremental
  unfold Entries.Counts
  cases ht : e.get? lastIncrementalKey with
  | none =>
    rw [ht] at hlast
    have hnone : m.lastIncremental = none := (Except.ok.inj hlast).symm
    simp [hnone]
  | some t =>
    rw [ht] at hlast
    have hread := Counter.ofText_eq_some_iff (n := n) (hshort t ht)
    rw [show Counter.ofText t = .ok m.lastIncremental from hlast, Except.ok.injEq] at hread
    rw [hread]
    simp

/-- The markers that are read are those that are written. -/
theorem mem_markers_iff (hm : ofEntries e = .ok m) : n ∈ m.markers ↔ e.Marks n := by
  have hshort := (isLegible_of_ofEntries hm).markers
  rw [mem_of_readMarkers (ofEntries_eq_ok hm).2.1]
  unfold Entries.Marks
  simp only [List.not_mem_nil, false_or]
  constructor
  · rintro ⟨p, hp, hkey, hvalue⟩
    exact ⟨p, hp, hkey, (Counter.ofText_eq_some_iff (hshort p hp hkey)).mp hvalue⟩
  · rintro ⟨p, hp, hkey, hvalue⟩
    exact ⟨p, hp, hkey, (Counter.ofText_eq_some_iff (hshort p hp hkey)).mpr hvalue⟩

theorem chainId_of_ofEntries (hm : ofEntries e = .ok m) : m.chainId = e.get? chainIdKey := by
  obtain ⟨_, _, _, -, -, -, rfl⟩ := ofEntries_eq_ok_iff.mp hm
  rfl

theorem sameChain_iff (hm : ofEntries e = .ok m) (hm' : ofEntries e' = .ok m') :
    Plan.SameChain m m' ↔ e.SameChain e' := by
  rw [Plan.SameChain, Entries.SameChain, chainId_of_ofEntries hm, chainId_of_ofEntries hm']

end Meaning

end Manifest

/-! ## 3. Plans between entries -/

namespace Plan

/-- The plan between the entries of a copy and those that are published. -/
def ofEntries (copied published : Entries) : Except Fault Plan := do
  let copy ← Manifest.ofEntries copied
  let published ← Manifest.ofEntries published
  Plan.decide (some copy) published

/-- The plan between entries, by what they write. A counter that writes no integer is as good as
absent, and a marker that writes none is ignored. -/
inductive Planned (copied published : Entries) : Plan → Prop
  | chainMismatch : ¬copied.SameChain published → Planned copied published (.full .chainMismatch)
  | uncounted : copied.SameChain published → ((∀ n, ¬copied.Counts n) ∨ ∀ n, ¬published.Counts n) →
      Planned copied published (.full .counterUnparsable)
  | pruned {current latest : Int} : copied.SameChain published → copied.Counts current →
      published.Counts latest → ¬published.Marks current → ¬published.Marks (current + 1) →
      Planned copied published (.full .chainPruned)
  | incremental {current latest : Int} : copied.SameChain published → copied.Counts current →
      published.Counts latest → published.Marks current ∨ published.Marks (current + 1) →
      Planned copied published (.incremental (current + 1) latest)

section

variable {copied published : Entries} {copy offered : Manifest}

theorem planned_of_chosen {plan : Plan} (hcopy : Manifest.ofEntries copied = .ok copy)
    (hoffered : Manifest.ofEntries published = .ok offered) (h : Chosen copy offered plan) :
    Planned copied published plan := by
  have hchain := Manifest.sameChain_iff hcopy hoffered
  cases h with
  | chainMismatch h => exact .chainMismatch (mt hchain.mpr h)
  | counterUnparsable h h' =>
    refine .uncounted (hchain.mp h) ?_
    by_contra hboth
    simp only [not_or, not_forall, not_not] at hboth
    obtain ⟨⟨current, hcurrent⟩, latest, hlatest⟩ := hboth
    exact h' ⟨current, latest, (Manifest.lastIncremental_iff hcopy).mpr hcurrent,
      (Manifest.lastIncremental_iff hoffered).mpr hlatest⟩
  | chainPruned h h' h'' =>
    obtain ⟨current, latest, hcurrent, hlatest⟩ := h'
    refine .pruned (hchain.mp h) ((Manifest.lastIncremental_iff hcopy).mp hcurrent)
      ((Manifest.lastIncremental_iff hoffered).mp hlatest) (fun hmark => h'' ?_) fun hmark => h'' ?_
    · exact ⟨current, hcurrent, .inl ((Manifest.mem_markers_iff hoffered).mpr hmark)⟩
    · exact ⟨current, hcurrent, .inr ((Manifest.mem_markers_iff hoffered).mpr hmark)⟩
  | @incremental current latest h hcurrent hlatest h' =>
    obtain ⟨n, hn, hmarks⟩ := h'
    obtain rfl : n = current := Option.some.inj (hn.symm.trans hcurrent)
    rw [Manifest.mem_markers_iff hoffered, Manifest.mem_markers_iff hoffered] at hmarks
    exact .incremental (hchain.mp h) ((Manifest.lastIncremental_iff hcopy).mp hcurrent)
      ((Manifest.lastIncremental_iff hoffered).mp hlatest) hmarks

theorem ofEntries_of_copied {fault : Fault} (h : Manifest.ofEntries copied = .error fault) :
    ofEntries copied published = .error fault := by
  simp [ofEntries, h, bind, Except.bind]

theorem ofEntries_of_published {fault : Fault} (hcopy : Manifest.ofEntries copied = .ok copy)
    (h : Manifest.ofEntries published = .error fault) :
    ofEntries copied published = .error fault := by
  simp [ofEntries, hcopy, h, bind, Except.bind]

theorem ofEntries_of_sameId (hcopy : Manifest.ofEntries copied = .ok copy)
    (hoffered : Manifest.ofEntries published = .ok offered)
    (hsame : Session.SameId copied published) :
    ofEntries copied published = .ok (against copy offered) := by
  have hindex : SameIndex copy offered := (Session.sameIndex_iff hcopy hoffered).mpr hsame
  have hwritable := writable_against hcopy hoffered
  simp [ofEntries, hcopy, hoffered, decide_of_writable hindex hwritable, bind, Except.bind]

/-- **Of two manifests of one index, only a counter with too many digits stands against a plan.** If
there is none, the plan is made by what the counters write, and one that writes no integer stands
for none. If there is one, on either side, no plan is made. -/
theorem planned_iff_countsShort (hsame : Session.SameId copied published)
    (hcopied : Manifest.InCalendar copied) (hpublished : Manifest.InCalendar published) :
    ((∃ plan, ofEntries copied published = .ok plan) ↔
      Manifest.CountsShort copied ∧ Manifest.CountsShort published) ∧
    (∀ plan, ofEntries copied published = .ok plan → Planned copied published plan) ∧
    ∀ fault, ofEntries copied published = .error fault → fault = .invalidValue none := by
  by_cases hshort : Manifest.CountsShort copied
  · obtain ⟨copy, hcopy⟩ := Manifest.exists_ofEntries_of_countsShort hcopied hshort
    by_cases hshort' : Manifest.CountsShort published
    · obtain ⟨offered, hoffered⟩ := Manifest.exists_ofEntries_of_countsShort hpublished hshort'
      have hplanned := planned_of_chosen hcopy hoffered (chosen_against copy offered)
      rw [ofEntries_of_sameId hcopy hoffered hsame]
      refine ⟨iff_of_true ⟨_, rfl⟩ ⟨hshort, hshort'⟩, ?_, nofun⟩
      rintro plan ⟨⟩
      exact hplanned
    · rw [ofEntries_of_published hcopy (Manifest.ofEntries_of_not_countsShort hpublished hshort')]
      refine ⟨iff_of_false (by simp) fun h => hshort' h.2, nofun, ?_⟩
      rintro fault ⟨⟩
      rfl
  · rw [ofEntries_of_copied (Manifest.ofEntries_of_not_countsShort hcopied hshort)]
    refine ⟨iff_of_false (by simp) fun h => hshort h.1, nofun, ?_⟩
    rintro fault ⟨⟩
    rfl

end

/-- A manifest of one index and one chain, and where it stopped. -/
def stoppedAt (last : Text) : Entries :=
  ⟨[(Manifest.indexIdKey, "central"), (Manifest.chainIdKey, "c1"),
    (Manifest.lastIncrementalKey, last)], by
    show [Manifest.indexIdKey, Manifest.chainIdKey, Manifest.lastIncrementalKey].Nodup
    decide⟩

theorem get?_stoppedAt (last : Text) :
    (stoppedAt last).get? Manifest.lastIncrementalKey = some last := by
  show Pairs.get? Manifest.lastIncrementalKey (stoppedAt last).pairs = some last
  simp [stoppedAt, Pairs.get?, show Manifest.indexIdKey ≠ Manifest.lastIncrementalKey by decide,
    show Manifest.chainIdKey ≠ Manifest.lastIncrementalKey by decide]

theorem inCalendar_stoppedAt (last : Text) : Manifest.InCalendar (stoppedAt last) := by
  intro t h
  have hnone : (stoppedAt last).get? Manifest.timestampKey = none := by
    show Pairs.get? Manifest.timestampKey (stoppedAt last).pairs = none
    simp [stoppedAt, Pairs.get?, show Manifest.indexIdKey ≠ Manifest.timestampKey by decide,
      show Manifest.chainIdKey ≠ Manifest.timestampKey by decide,
      show Manifest.lastIncrementalKey ≠ Manifest.timestampKey by decide]
  rw [hnone] at h
  cases h

theorem sameId_stoppedAt (last last' : Text) : Session.SameId (stoppedAt last) (stoppedAt last') :=
  ⟨"central", rfl, rfl⟩

theorem countsShort_stoppedAt {last : Text} (h : Counter.IsShort last) :
    Manifest.CountsShort (stoppedAt last) := by
  refine ⟨fun p hp hkey => ?_, fun t ht => ?_⟩
  · -- none of the three keys is a marker's
    have hnone : ∀ key ∈ (stoppedAt last).pairs.map Prod.fst,
        key.beginsWith Manifest.markerKeyStem = false := by
      show ∀ key ∈ [Manifest.indexIdKey, Manifest.chainIdKey, Manifest.lastIncrementalKey],
        key.beginsWith Manifest.markerKeyStem = false
      decide
    rw [hnone p.1 (List.mem_map_of_mem hp)] at hkey
    cases hkey
  · rw [get?_stoppedAt] at ht
    cases ht
    exact h

theorem counts_stoppedAt_iff {last : Text} {n : Int} :
    (stoppedAt last).Counts n ↔ Counter.Writes last n := by
  unfold Entries.Counts
  simp [get?_stoppedAt]

/-- A last counter in words is as good as none. -/
theorem planned_iff_countsShort_eight :
    ofEntries (stoppedAt "eight") (stoppedAt "9") = .ok (.full .counterUnparsable) := by
  have hword : Counter.digits? (Counter.splitSign "eight").2 = none := by decide
  have hshort : Manifest.CountsShort (stoppedAt "eight") := by
    refine countsShort_stoppedAt fun ds h => ?_
    rw [hword] at h
    cases h
  have hnine : Counter.IsNumeral "9" := ⟨by decide, by decide⟩
  have hshort' : Manifest.CountsShort (stoppedAt "9") :=
    countsShort_stoppedAt ((Counter.isShort_iff_of_isNumeral hnine).mpr (by decide))
  obtain ⟨hexists, hplanned, -⟩ := planned_iff_countsShort (sameId_stoppedAt "eight" "9")
    (inCalendar_stoppedAt _) (inCalendar_stoppedAt _)
  obtain ⟨plan, hplan⟩ := hexists.mpr ⟨hshort, hshort'⟩
  have hnone (n : Int) : ¬(stoppedAt "eight").Counts n := by
    intro h
    have hnumeral := (Counter.writes_iff.mp (counts_stoppedAt_iff.mp h)).1
    have hsome := Counter.digits?_eq_some_iff.mpr ⟨hnumeral.2, rfl⟩
    rw [hword] at hsome
    cases hsome
  rw [hplan]
  cases hplanned plan hplan with
  | chainMismatch h => exact absurd ⟨"c1", rfl, rfl⟩ h
  | uncounted => rfl
  | pruned _ h => exact absurd h (hnone _)
  | incremental _ h => exact absurd h (hnone _)

/-- An integer of one digit more than are read. -/
def overlong : Text := List.replicate 4301 (CodePoint.ofChar '8')

/-- **An integer that is too long is not as good as none.** It is written where a last counter
belongs, and it is the only reason why there is no plan. -/
theorem no_plan_overlong :
    Session.SameId (stoppedAt overlong) (stoppedAt "9") ∧
    Manifest.InCalendar (stoppedAt overlong) ∧ Manifest.InCalendar (stoppedAt "9") ∧
    ofEntries (stoppedAt overlong) (stoppedAt "9") = .error (.invalidValue none) := by
  have hdigits : ∀ c ∈ overlong, Counter.IsDigit c := by
    intro c hc
    rw [List.eq_of_mem_replicate hc]
    decide
  have hlength : overlong.length = 4301 := List.length_replicate
  have hnumeral : Counter.IsNumeral overlong := ⟨List.ne_nil_of_length_pos (by omega), hdigits⟩
  have hlong : ¬Counter.IsShort overlong := by
    rw [Counter.isShort_iff_of_isNumeral hnumeral, hlength]
    decide
  have hnot : ¬Manifest.CountsShort (stoppedAt overlong) := fun h =>
    hlong (h.2 overlong (get?_stoppedAt _))
  exact ⟨sameId_stoppedAt _ _, inCalendar_stoppedAt _, inCalendar_stoppedAt _,
    ofEntries_of_copied (Manifest.ofEntries_of_not_countsShort (inCalendar_stoppedAt _) hnot)⟩

end Plan

end IndexChain
