import IndexChain.Manifest
import IndexChain.Proofs.Entries.RoundTrip

/-!
# Manifests — what is read is what is stored

A manifest is its entries and what follows from them, so the round trip of entries carries over: **a
manifest that was read from a resource is read again, in all its parts, from what is stored of it**
(`ofPayload_of_ofPayload`). Its counter has no more digits than are ever read
(`natAbs_lastIncremental_lt`), so that it can be written wherever it could be read.
-/

namespace IndexChain

/-! ## 1. Counters -/

namespace Counter

theorem lt_ten_of_digits? {t : Text} {ds : List Nat} (h : digits? t = some ds) :
    ∀ d ∈ ds, d < 10 := by
  induction t generalizing ds with
  | nil =>
    cases h
    simp
  | cons c t ih =>
    unfold digits? at h
    cases hc : c.asciiDigit? with
    | none => simp [hc] at h
    | some d =>
      cases ht : digits? t with
      | none => simp [hc, ht] at h
      | some rest =>
        rw [hc, ht] at h
        cases h
        have hd : d < 10 := by
          unfold CodePoint.asciiDigit? at hc
          split at hc
          · rename_i hrange
            obtain rfl := Option.some.inj hc
            simp only [Bool.and_eq_true, decide_eq_true_eq] at hrange
            omega
          · cases hc
        exact List.forall_mem_cons.mpr ⟨hd, ih ht⟩

theorem natAbs_lt {t : Text} {n : Int} (h : ofText t = .ok (some n)) :
    n.natAbs < 10 ^ digitLimit := by
  unfold ofText at h
  revert h
  dsimp only
  cases hds : digits? (splitSign t).2 with
  | none => exact nofun
  | some ds =>
    cases ds with
    | nil => exact nofun
    | cons d ds =>
      dsimp only
      split
      · exact nofun
      · rename_i hlimit
        rintro ⟨⟩
        have hvalue := Text.digitsValue_lt (lt_ten_of_digits? hds)
        have hpow : 10 ^ (d :: ds).length ≤ 10 ^ digitLimit :=
          Nat.pow_le_pow_right (by omega) (by omega)
        split <;> omega

/-- A written integer has no more digits than are ever read. -/
def IsShort (t : Text) : Prop := ∀ ds, digits? (splitSign t).2 = some ds → ds.length ≤ digitLimit

/-- **Only a counter with too many digits is an error.** -/
theorem exists_ofText_iff {t : Text} : (∃ n, ofText t = .ok n) ↔ IsShort t := by
  unfold ofText IsShort
  dsimp only
  cases digits? (splitSign t).2 with
  | none => simp
  | some ds =>
    cases ds with
    | nil => simp
    | cons d ds =>
      dsimp only
      split <;> simp_all

theorem exists_ofText?_iff {t : Option Text} :
    (∃ n, ofText? t = .ok n) ↔ ∀ u, t = some u → IsShort u := by
  cases t with
  | none => simp [ofText?]
  | some u => simp [ofText?, exists_ofText_iff]

end Counter

/-! ## 2. Reading a manifest -/

namespace Manifest

/-- A manifest is its entries, and what its markers, its stamp and its counter were read as. -/
theorem ofEntries_eq_ok_iff {e : Entries} {m : Manifest} :
    ofEntries e = .ok m ↔ ∃ markers publishedAt lastIncremental,
      readMarkers [] e.pairs = .ok markers ∧ readStamp (e.get? timestampKey) = .ok publishedAt ∧
      Counter.ofText? (e.get? lastIncrementalKey) = .ok lastIncremental ∧
      m = ⟨e, e.get? indexIdKey, publishedAt, e.get? chainIdKey, lastIncremental, markers⟩ := by
  unfold ofEntries
  cases readMarkers [] e.pairs with
  | error fault => simp [bind, Except.bind]
  | ok markers =>
    cases readStamp (e.get? timestampKey) with
    | error fault => simp [bind, Except.bind]
    | ok publishedAt =>
      cases Counter.ofText? (e.get? lastIncrementalKey) with
      | error fault => simp [bind, Except.bind]
      | ok lastIncremental => simp [bind, Except.bind, pure, Except.pure, eq_comm]

theorem ofEntries_eq_ok {e : Entries} {m : Manifest} (h : ofEntries e = .ok m) :
    m.entries = e ∧ readMarkers [] e.pairs = .ok m.markers ∧
      readStamp (e.get? timestampKey) = .ok m.publishedAt ∧
      Counter.ofText? (e.get? lastIncrementalKey) = .ok m.lastIncremental := by
  obtain ⟨markers, publishedAt, lastIncremental, hmarkers, hstamp, hcounter, rfl⟩ :=
    ofEntries_eq_ok_iff.mp h
  exact ⟨rfl, hmarkers, hstamp, hcounter⟩

theorem entries_of_ofEntries {e : Entries} {m : Manifest} (h : ofEntries e = .ok m) :
    m.entries = e :=
  (ofEntries_eq_ok h).1

theorem indexId_of_ofEntries {e : Entries} {m : Manifest} (h : ofEntries e = .ok m) :
    m.indexId = e.get? indexIdKey := by
  obtain ⟨_, _, _, -, -, -, rfl⟩ := ofEntries_eq_ok_iff.mp h
  rfl

theorem ofPayload_eq_ok {content : Bytes} {m : Manifest} (h : ofPayload (.bytes content) = .ok m) :
    Entries.ofPayload (.bytes content) = .ok m.entries ∧ ofEntries m.entries = .ok m := by
  unfold ofPayload at h
  rcases hentries : Entries.ofPayload (.bytes content) with cause | entries
  · rw [hentries] at h
    cases h
  · rw [hentries] at h
    obtain rfl := entries_of_ofEntries h
    exact ⟨rfl, h⟩

/-! ## 3. Which entries make a manifest -/

/-- What entries say in places that matter may make no sense, but it is within what is ever read:
counters have no more digits, and the time of publication is in the calendar. -/
structure IsLegible (e : Entries) : Prop where
  markers : ∀ p ∈ e.pairs, p.1.beginsWith markerKeyStem = true → Counter.IsShort p.2
  lastIncremental : ∀ t, e.get? lastIncrementalKey = some t → Counter.IsShort t
  timestamp : ∀ t, e.get? timestampKey = some t → Moment.ofStamp t ≠ .error .outOfRange

theorem exists_readMarkers_iff {pairs : List (Text × Text)} (markers : List Int) :
    (∃ ms, readMarkers markers pairs = .ok ms) ↔
      ∀ p ∈ pairs, p.1.beginsWith markerKeyStem = true → Counter.IsShort p.2 := by
  induction pairs generalizing markers with
  | nil => simp [readMarkers]
  | cons p pairs ih =>
    obtain ⟨key, value⟩ := p
    rw [List.forall_mem_cons, readMarkers]
    by_cases hkey : key.beginsWith markerKeyStem = true
    · have hshort := Counter.exists_ofText_iff (t := value)
      simp only [hkey, if_true]
      cases hvalue : Counter.ofText value with
      | error fault => simp_all
      | ok n =>
        rw [hvalue] at hshort
        cases n <;> simp [ih, hshort.mp ⟨_, rfl⟩]
    · simp [hkey, ih]

theorem exists_readStamp_iff {stamp : Option Text} :
    (∃ at?, readStamp stamp = .ok at?) ↔ ∀ t, stamp = some t →
    Moment.ofStamp t ≠ .error .outOfRange := by
  cases stamp with
  | none => simp [readStamp]
  | some t =>
    unfold readStamp
    rcases hstamp : Moment.ofStamp t with (_ | _) | _ <;> simp [hstamp]

/-- The time of publication is known exactly if a stamp is there and can be read. -/
theorem readStamp_eq_some_iff {stamp : Option Text} {m : Moment} :
    readStamp stamp = .ok (some m) ↔ ∃ t, stamp = some t ∧ Moment.ofStamp t = .ok m := by
  cases stamp with
  | none => simp [readStamp]
  | some t =>
    unfold readStamp
    rcases hstamp : Moment.ofStamp t with (_ | _) | _ <;> simp [hstamp]

/-- **Entries make a manifest exactly if they are legible.** -/
theorem exists_ofEntries_iff {e : Entries} : (∃ m, ofEntries e = .ok m) ↔ IsLegible e := by
  constructor
  · rintro ⟨m, hm⟩
    obtain ⟨markers, publishedAt, lastIncremental, hmarkers, hstamp, hlast, -⟩ :=
      ofEntries_eq_ok_iff.mp hm
    exact ⟨(exists_readMarkers_iff []).mp ⟨_, hmarkers⟩, Counter.exists_ofText?_iff.mp ⟨_, hlast⟩,
      exists_readStamp_iff.mp ⟨_, hstamp⟩⟩
  · intro h
    obtain ⟨markers, hmarkers⟩ := (exists_readMarkers_iff []).mpr h.markers
    obtain ⟨publishedAt, hstamp⟩ := exists_readStamp_iff.mpr h.timestamp
    obtain ⟨lastIncremental, hlast⟩ := Counter.exists_ofText?_iff.mpr h.lastIncremental
    exact ⟨_, ofEntries_eq_ok_iff.mpr ⟨_, _, _, hmarkers, hstamp, hlast, rfl⟩⟩

/-! ## 4. Reading again what is stored -/

/-- The entries of a manifest are read again from what is stored of them. -/
theorem entries_of_toBytes? {content stored : Bytes} {m : Manifest} {comment : Option Text}
    {now : Moment} (hm : ofPayload (.bytes content) = .ok m)
    (hstored : m.entries.toBytes? comment now = some stored) :
    Entries.ofPayload (.bytes stored) = .ok m.entries :=
  Entries.ofPayload_of_toBytes? (Entries.isWhole_of_ofPayload_bytes (ofPayload_eq_ok hm).1) hstored

/-- **A manifest that was read is read again from what is stored of it.** -/
theorem ofPayload_of_ofPayload {content stored : Bytes} {m : Manifest} {comment : Option Text}
    {now : Moment} (hm : ofPayload (.bytes content) = .ok m)
    (hstored : m.entries.toBytes? comment now = some stored) :
    ofPayload (.bytes stored) = .ok m := by
  rw [ofPayload, entries_of_toBytes? hm hstored]
  exact (ofPayload_eq_ok hm).2

/-- The counter that was read can be written again: it has no more digits than are ever read. -/
theorem natAbs_lastIncremental_lt {e : Entries} {m : Manifest} {n : Int} (hm : ofEntries e = .ok m)
    (hn : m.lastIncremental = some n) : n.natAbs < 10 ^ Counter.digitLimit := by
  obtain ⟨-, -, -, hcounter⟩ := ofEntries_eq_ok hm
  rw [hn] at hcounter
  cases htext : e.get? lastIncrementalKey with
  | none =>
    rw [htext] at hcounter
    cases hcounter
  | some text =>
    rw [htext] at hcounter
    exact Counter.natAbs_lt hcounter

end Manifest

end IndexChain
