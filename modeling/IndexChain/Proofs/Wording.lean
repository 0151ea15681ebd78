import IndexChain.Proofs.Counters

/-!
# Wording — what a plan depends on

A plan is made from two manifests, and the same can be said in a manifest in many ways: in any
order, beside any other entries, with markers under any keys of theirs, and with counters in any
spelling. **None of this makes a difference: manifests that say the same lead to the same plan, or
are refused alike** (`Plan.decide_eq_of_alike`).

What a copy says is its index, its chain and its last counter (`Entries.StandsAlike`), and what is
published says which counters are marked besides (`Entries.OffersAlike`). The markers of a copy are
not asked for.
-/

namespace IndexChain

/-! ## 1. The same counter in other words -/

namespace Counter

variable {word : Text} {n : Int}

theorem writes_numeral_iff (h : IsNumeral word) : Writes word n ↔ n = numeralValue word := by
  rw [writes_iff, splitSign_of_isNumeral h]
  exact and_iff_right h

/-- Leading zeros make no difference. -/
theorem writes_zero_iff (h : IsNumeral word) :
    Writes (CodePoint.ofChar '0' :: word) n ↔ Writes word n := by
  have hzero : IsNumeral (CodePoint.ofChar '0' :: word) :=
    ⟨by simp, List.forall_mem_cons.mpr ⟨by decide, h.2⟩⟩
  rw [writes_numeral_iff h, writes_numeral_iff hzero]
  rfl

/-- Nor does a plus sign. -/
theorem writes_plus_iff (h : IsNumeral word) :
    Writes (CodePoint.ofChar '+' :: word) n ↔ Writes word n := by
  rw [writes_numeral_iff h, writes_iff]
  exact and_iff_right h

end Counter

/-! ## 2. The same manifest in other words -/

namespace Entries

theorem mem_pairs_iff {e : Entries} {key value : Text} :
    (key, value) ∈ e.pairs ↔ e.get? key = some value :=
  ⟨Pairs.get?_of_mem e.nodup_keys, Pairs.mem_of_get?⟩

/-- The entries say the same of the index, its chain and the newest chunk. -/
structure StandsAlike (e e' : Entries) : Prop where
  indexId : e.get? Manifest.indexIdKey = e'.get? Manifest.indexIdKey
  chainId : e.get? Manifest.chainIdKey = e'.get? Manifest.chainIdKey
  counts : ∀ n, e.Counts n ↔ e'.Counts n

/-- And they say the same of the chunks on offer. -/
structure OffersAlike (e e' : Entries) : Prop extends StandsAlike e e' where
  marks : ∀ n, e.Marks n ↔ e'.Marks n

/-- The text stands under a key of markers. -/
def IsMarker (e : Entries) (t : Text) : Prop :=
  ∃ key, key.beginsWith Manifest.markerKeyStem = true ∧ e.get? key = some t

variable {e e' : Entries} {n : Int}

theorem marks_iff : e.Marks n ↔ ∃ t, e.IsMarker t ∧ Counter.Writes t n := by
  constructor
  · rintro ⟨⟨key, t⟩, hp, hkey, hwrites⟩
    exact ⟨t, ⟨key, hkey, mem_pairs_iff.mp hp⟩, hwrites⟩
  · rintro ⟨t, ⟨key, hkey, hget⟩, hwrites⟩
    exact ⟨(key, t), mem_pairs_iff.mpr hget, hkey, hwrites⟩

/-- Neither the order of entries matters, nor what stands under other keys, nor under which of their
keys the markers stand and how often. -/
theorem offersAlike_of_agree (hindex : e.get? Manifest.indexIdKey = e'.get? Manifest.indexIdKey)
    (hchain : e.get? Manifest.chainIdKey = e'.get? Manifest.chainIdKey)
    (hlast : e.get? Manifest.lastIncrementalKey = e'.get? Manifest.lastIncrementalKey)
    (hmarkers : ∀ t, e.IsMarker t ↔ e'.IsMarker t) : e.OffersAlike e' where
  indexId := hindex
  chainId := hchain
  counts n := by rw [Counts, Counts, hlast]
  marks n := by
    rw [marks_iff, marks_iff]
    exact exists_congr fun t => and_congr_left' (hmarkers t)

end Entries

/-! ## 3. Plans -/

namespace Manifest

/-- As manifests of copies the two make no difference to a plan. -/
structure PlansAlike (m m' : Manifest) : Prop where
  indexId : m.indexId = m'.indexId
  chainId : m.chainId = m'.chainId
  lastIncremental : m.lastIncremental = m'.lastIncremental

theorem PlansAlike.decide_eq {m m' : Manifest} (h : PlansAlike m m') (published : Manifest) :
    Plan.decide (some m) published = Plan.decide (some m') published := by
  unfold Plan.decide Plan.against
  simp only [h.indexId, h.chainId, h.lastIncremental]

/-- As published manifests the two make no difference to a plan. -/
structure OffersAlike (m m' : Manifest) : Prop extends PlansAlike m m' where
  markers : ∀ n, n ∈ m.markers ↔ n ∈ m'.markers

theorem OffersAlike.decide_eq {m m' : Manifest} (h : OffersAlike m m') (copy : Option Manifest) :
    Plan.decide copy m = Plan.decide copy m' := by
  unfold Plan.decide Plan.against
  simp only [h.indexId, h.chainId, h.lastIncremental, h.markers]

variable {e e' : Entries} {m m' : Manifest}

theorem plansAlike_of_standsAlike (h : e.StandsAlike e') (hm : ofEntries e = .ok m)
    (hm' : ofEntries e' = .ok m') : PlansAlike m m' where
  indexId := by rw [indexId_of_ofEntries hm, indexId_of_ofEntries hm', h.indexId]
  chainId := by rw [chainId_of_ofEntries hm, chainId_of_ofEntries hm', h.chainId]
  lastIncremental := by
    refine Option.ext fun n => ?_
    rw [lastIncremental_iff hm, lastIncremental_iff hm', h.counts]

theorem offersAlike_of_offersAlike (h : e.OffersAlike e') (hm : ofEntries e = .ok m)
    (hm' : ofEntries e' = .ok m') : OffersAlike m m' where
  toPlansAlike := plansAlike_of_standsAlike h.toStandsAlike hm hm'
  markers n := by rw [mem_markers_iff hm, mem_markers_iff hm', h.marks]

end Manifest

namespace Plan

/-- **A plan depends on what the manifests say**, and not on how they say it: not on the order of
their entries, on other entries or on the keys of the markers (`Entries.offersAlike_of_agree`), and
not on leading zeros and plus signs (`Counter.writes_zero_iff`, `Counter.writes_plus_iff`). -/
theorem decide_eq_of_alike {copied copied' published published' : Entries}
    {copy copy' offered offered' : Manifest} (hcopy : Manifest.ofEntries copied = .ok copy)
    (hcopy' : Manifest.ofEntries copied' = .ok copy')
    (hoffered : Manifest.ofEntries published = .ok offered)
    (hoffered' : Manifest.ofEntries published' = .ok offered')
    (hstands : copied.StandsAlike copied') (hoffers : published.OffersAlike published') :
    Plan.decide (some copy) offered = Plan.decide (some copy') offered' := by
  have hcopies := Manifest.plansAlike_of_standsAlike hstands hcopy hcopy'
  have hpublished := Manifest.offersAlike_of_offersAlike hoffers hoffered hoffered'
  rw [hcopies.decide_eq, hpublished.decide_eq]

/-- A manifest of one index and one chain, which stopped at a chunk that is still on offer. -/
def worded : Entries :=
  ⟨[(Manifest.indexIdKey, "central"), (Manifest.chainIdKey, "c1"),
    (Manifest.lastIncrementalKey, "8"), ("nexus.index.incremental-0", "8")], by decide +kernel⟩

/-- The same in other words. -/
def reworded : Entries :=
  ⟨[("nexus.index.incremental-7", "+8"), (Manifest.lastIncrementalKey, "008"), ("comment", "eight"),
    (Manifest.chainIdKey, "c1"), ("nexus.index.incremental-x", "08"),
    (Manifest.indexIdKey, "central")], by
    decide +kernel⟩

theorem offersAlike_reworded : worded.OffersAlike reworded := by
  have height : Counter.IsNumeral "8" := ⟨by decide, by decide⟩
  have hzero (n : Int) : Counter.Writes "08" n ↔ Counter.Writes "8" n :=
    Counter.writes_zero_iff height
  have hzeros (n : Int) : Counter.Writes "008" n ↔ Counter.Writes "8" n :=
    (Counter.writes_zero_iff ⟨by decide, by decide⟩).trans (hzero n)
  have hplus (n : Int) : Counter.Writes "+8" n ↔ Counter.Writes "8" n :=
    Counter.writes_plus_iff height
  have hkeys : Manifest.indexIdKey.beginsWith Manifest.markerKeyStem = false ∧
      Manifest.chainIdKey.beginsWith Manifest.markerKeyStem = false ∧
      Manifest.lastIncrementalKey.beginsWith Manifest.markerKeyStem = false ∧
      Text.beginsWith "comment" Manifest.markerKeyStem = false ∧
      Text.beginsWith "nexus.index.incremental-0" Manifest.markerKeyStem = true ∧
      Text.beginsWith "nexus.index.incremental-7" Manifest.markerKeyStem = true ∧
      Text.beginsWith "nexus.index.incremental-x" Manifest.markerKeyStem = true := by
    decide +kernel
  refine ⟨⟨by decide +kernel, by decide +kernel, fun n => ?_⟩, fun n => ?_⟩
  · have hlast : worded.get? Manifest.lastIncrementalKey = some "8" := by decide +kernel
    have hlast' : reworded.get? Manifest.lastIncrementalKey = some "008" := by decide +kernel
    simp [Entries.Counts, hlast, hlast', hzeros]
  · simp [Entries.Marks, worded, reworded, hkeys, hzero, hplus]

theorem decide_eq_of_alike_reworded :
    ∃ m m', Manifest.ofEntries worded = .ok m ∧ Manifest.ofEntries reworded = .ok m' ∧
      Plan.decide (some m) m = Plan.decide (some m') m' := by
  have hmade : (Manifest.ofEntries worded).toOption.isSome ∧
      (Manifest.ofEntries reworded).toOption.isSome := by
    decide +kernel
  cases hm : Manifest.ofEntries worded with
  | error fault => simp [hm, Except.toOption] at hmade
  | ok m =>
    cases hm' : Manifest.ofEntries reworded with
    | error fault => simp [hm', Except.toOption] at hmade
    | ok m' =>
      exact ⟨m, m', rfl, rfl,
        decide_eq_of_alike hm hm' hm hm' offersAlike_reworded.toStandsAlike offersAlike_reworded⟩

end Plan

end IndexChain
