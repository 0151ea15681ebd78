import IndexChain.Proofs.Location
import IndexChain.Proofs.Manifest
import Mathlib.Data.List.Nodup

/-!
# Plans — which plan is made, and under which names

Three facts about plans carry over to everything that is fetched.

* **Which plan is made** follows from four conditions on two manifests: `SameIndex`, without which
  there is no plan, and `SameChain`, `BothCounted` and `StillOffered`, without which the whole index
  is planned for the reason of the first that fails.
* **The names of a plan are as many as its chunks** (`NamesBetween`): an integer can be told from
  how it is written, however long, so no two chunks have one name, and none has the name of the
  whole index or of the manifest. Ranges of chunks that follow each other can be put together
  (`counters_append`).
* **A counter with too many digits has no name**, and keeps a plan that needs it from being made
  (`Overlong`). Manifests that were read have no such counters (`writable_against`), so this
  concerns only those that were put together otherwise.
-/

namespace IndexChain

/-! ## 1. Names -/

theorem chunkName_injective : Function.Injective chunkName := by
  intro m n h
  unfold chunkName at h
  exact Text.ofInt_injective (List.append_cancel_left (List.append_cancel_right h))

theorem chunkName_ne_fullChunkName (n : Int) : chunkName n ≠ Plan.fullChunkName := by
  intro h
  -- a chunk has a point more in its name
  have hlength := congrArg List.length h
  have hstem : Plan.fullChunkName.length = Manifest.resourceStem.length +
      (".gz" : Text).length := by
    decide
  have hpoint : ("." : Text).length = 1 := rfl
  simp only [chunkName, List.length_append] at hlength
  omega

namespace Plan

/-! ## 2. Ranges of counters -/

theorem length_counters (first last : Int) :
    (counters first last).length = (last + 1 - first).toNat := by
  simp [counters]

theorem getElem_counters {first last : Int} {i : Nat} (h : i < (counters first last).length) :
    (counters first last)[i] = first + i := by
  simp [counters]

theorem mem_counters {first last n : Int} : n ∈ counters first last ↔ first ≤ n ∧ n ≤ last := by
  rw [counters, List.mem_map]
  constructor
  · rintro ⟨i, hi, rfl⟩
    rw [List.mem_range] at hi
    omega
  · rintro ⟨hfirst, hlast⟩
    exact ⟨(n - first).toNat, List.mem_range.mpr (by omega), by omega⟩

theorem nodup_counters (first last : Int) : (counters first last).Nodup := by
  refine List.nodup_range.map fun i j h => ?_
  exact Int.ofNat_inj.mp (Int.add_left_cancel h)

/-- A range goes on where another one ends. -/
theorem counters_append {first middle last : Int} (h : first ≤ middle + 1) (h' : middle ≤ last) :
    counters first middle ++ counters (middle + 1) last = counters first last := by
  refine List.ext_getElem ?_ fun i hi hi' => ?_
  · simp only [List.length_append, length_counters]
    omega
  · rw [getElem_counters hi', List.getElem_append]
    split
    · exact getElem_counters _
    · rename_i hlong
      rw [getElem_counters, length_counters]
      rw [length_counters] at hlong
      omega

/-! ## 3. Counters that can be written -/

theorem isWritable_iff {n : Int} :
    Counter.isWritable n = true ↔ n.natAbs < 10 ^ Counter.digitLimit := by
  unfold Counter.isWritable Text.ofNat
  rw [decide_eq_true_iff, List.length_map]
  exact Nat.length_toDigits_le_iff (by decide) (by decide)

theorem chunkName?_of_isWritable {n : Int} (h : Counter.isWritable n = true) :
    chunkName? n = .ok (chunkName n) :=
  if_pos h

theorem mapM_chunkName?_of_isWritable {ns : List Int} (h : ∀ n ∈ ns, Counter.isWritable n = true) :
    ns.mapM chunkName? = .ok (ns.map chunkName) := by
  induction ns with
  | nil => rfl
  | cons n ns ih =>
    obtain ⟨hn, hns⟩ := List.forall_mem_cons.mp h
    rw [List.mapM_cons, chunkName?_of_isWritable hn, ih hns]
    rfl

/-- One counter that cannot be written keeps all names from being made. -/
theorem mapM_chunkName?_of_not_isWritable {ns : List Int}
    (h : ¬∀ n ∈ ns, Counter.isWritable n = true) :
    ns.mapM chunkName? = .error (.invalidValue none) := by
  induction ns with
  | nil => exact absurd nofun h
  | cons n ns ih =>
    rw [List.mapM_cons]
    by_cases hn : Counter.isWritable n = true
    · rw [chunkName?_of_isWritable hn, ih fun hns => h (List.forall_mem_cons.mpr ⟨hn, hns⟩)]
      rfl
    · rw [chunkName?, if_neg hn]
      rfl

/-- All counters of the plan can be written. -/
def Writable : Plan → Prop
  | full _ => True
  | incremental first last => ∀ n, first ≤ n → n ≤ last → n.natAbs < 10 ^ Counter.digitLimit

theorem writable_incremental_iff {first last : Int} :
    (incremental first last).Writable ↔ ∀ n ∈ counters first last, Counter.isWritable n = true := by
  simp only [Writable, mem_counters, isWritable_iff, and_imp]

theorem named_of_writable {plan : Plan} (h : plan.Writable) : plan.named = .ok plan := by
  cases plan with
  | full reason => rfl
  | incremental first last =>
    rw [named, mapM_chunkName?_of_isWritable (writable_incremental_iff.mp h)]
    rfl

theorem named_of_not_writable {plan : Plan} (h : ¬plan.Writable) :
    plan.named = .error (.invalidValue none) := by
  cases plan with
  | full reason => exact absurd trivial h
  | incremental first last =>
    rw [named, mapM_chunkName?_of_not_isWritable (mt writable_incremental_iff.mpr h)]
    rfl

theorem named_eq_ok_iff {plan plan' : Plan} :
    plan.named = .ok plan' ↔ plan.Writable ∧ plan = plan' := by
  by_cases h : plan.Writable
  · rw [named_of_writable h]
    simp [h]
  · rw [named_of_not_writable h]
    simp [h]

/-! ## 4. The names of an incremental plan -/

/-- One name for each counter behind `current` up to `latest`, in order, and all of them written;
    the chunks, the whole index and the manifest have a file each, in whatever folder. -/
structure NamesBetween (current latest : Int) (names : List Text) : Prop where
  length : names.length = (latest - current).toNat
  name : ∀ i (h : i < names.length), names[i] = chunkName (current + 1 + i)
  written : ∀ i (h : i < names.length), chunkName? (current + 1 + i) = .ok names[i]
  nodup : (Manifest.resourceName :: fullChunkName :: names).Nodup
  files : ∀ folder : Folder,
    ((Manifest.resourceName :: fullChunkName :: names).map folder.spot).Nodup

theorem fullChunkName_not_mem (first last : Int) :
    fullChunkName ∉ (incremental first last).chunkNames := by
  intro h
  obtain ⟨n, -, heq⟩ := List.mem_map.mp h
  exact chunkName_ne_fullChunkName n heq

theorem nodup_names (first last : Int) :
    (Manifest.resourceName :: fullChunkName :: (incremental first last).chunkNames).Nodup := by
  have hchunks : (incremental first last).chunkNames.Nodup :=
    (nodup_counters first last).map chunkName_injective
  refine List.nodup_cons.mpr ⟨?_, List.nodup_cons.mpr ⟨fullChunkName_not_mem first last, hchunks⟩⟩
  rw [List.mem_cons, not_or]
  exact ⟨by decide, resourceName_not_mem_chunkNames _⟩

theorem namesBetween_chunkNames {current latest : Int}
    (h : (incremental (current + 1) latest).Writable) :
    NamesBetween current latest (incremental (current + 1) latest).chunkNames where
  length := by
    rw [chunkNames, List.length_map, length_counters]
    omega
  name i hi := by
    simp only [chunkNames, List.getElem_map, getElem_counters]
  written i hi := by
    simp only [chunkNames, List.length_map] at hi
    have hmem := List.getElem_mem hi
    rw [getElem_counters hi] at hmem
    simp only [chunkNames, List.getElem_map, getElem_counters]
    exact chunkName?_of_isWritable (writable_incremental_iff.mp h _ hmem)
  nodup := nodup_names _ _
  files folder := (nodup_names _ _).map fun _ _ => Folder.spot_inj

/-- Counters below zero have names like any others. -/
example : (incremental (-1) 1).chunkNames =
    ["nexus-maven-repository-index.-1.gz", "nexus-maven-repository-index.0.gz",
      "nexus-maven-repository-index.1.gz"] := by
  decide

/-! ## 5. Which plan is made -/

section Conditions

variable (copy published : Manifest)

/-- Both manifests say of which index they are, and it is the same one. -/
def SameIndex : Prop := ∃ id, copy.indexId = some id ∧ published.indexId = some id

/-- Copy and publication stand on one chain. -/
def SameChain : Prop := ∃ chain, copy.chainId = some chain ∧ published.chainId = some chain

/-- The counters of both can be read. -/
def BothCounted : Prop :=
  ∃ current latest, copy.lastIncremental = some current ∧ published.lastIncremental = some latest

/-- The publication still offers the chunk at which the copy stopped, or the one after it. -/
def StillOffered : Prop :=
  ∃ current, copy.lastIncremental = some current ∧
    (current ∈ published.markers ∨ current + 1 ∈ published.markers)

/-- The chunks would suffice, but one between the two counters has a counter with too many
digits. -/
def Overlong : Prop :=
  SameChain copy published ∧ StillOffered copy published ∧
    ∃ current latest n, copy.lastIncremental = some current ∧
      published.lastIncremental = some latest ∧ current < n ∧ n ≤ latest ∧
      10 ^ Counter.digitLimit ≤ n.natAbs

end Conditions

section Decide

variable {copy published : Manifest}

/-- Two ids that may be missing are the same one. -/
theorem isNone_or_ne_iff {a b : Option Text} :
    (a.isNone || Decidable.decide (a ≠ b)) = true ↔ ¬∃ id, a = some id ∧ b = some id := by
  cases a with
  | none => simp
  | some id => simpa using not_congr (eq_comm (a := some id) (b := b))

theorem decide_of_sameIndex (h : SameIndex copy published) :
    Plan.decide (some copy) published = (against copy published).named := by
  have hids := mt isNone_or_ne_iff.mp (not_not_intro h)
  unfold Plan.decide
  exact if_neg hids

theorem decide_of_writable (h : SameIndex copy published) (h' : (against copy published).Writable) :
    Plan.decide (some copy) published = .ok (against copy published) :=
  (decide_of_sameIndex h).trans (named_of_writable h')

theorem decide_of_not_sameIndex (h : ¬SameIndex copy published) :
    Plan.decide (some copy) published =
      .error (.identityMismatch copy.indexId published.indexId) := by
  have hids := isNone_or_ne_iff.mpr h
  unfold Plan.decide
  exact if_pos hids

theorem against_of_not_sameChain (h : ¬SameChain copy published) :
    against copy published = .full .chainMismatch := by
  have hchains := isNone_or_ne_iff.mpr h
  unfold against
  exact if_pos hchains

/-- On one chain the counters come next, and then what is offered. -/
theorem against_of_sameChain (h : SameChain copy published) :
    against copy published =
      match copy.lastIncremental, published.lastIncremental with
      | some current, some latest =>
        if current ∈ published.markers || current + 1 ∈ published.markers then
          .incremental (current + 1) latest
        else .full .chainPruned
      | _, _ => .full .counterUnparsable := by
  have hchains := mt isNone_or_ne_iff.mp (not_not_intro h)
  unfold against
  exact if_neg hchains

theorem against_of_not_bothCounted (h : SameChain copy published)
    (h' : ¬BothCounted copy published) : against copy published = .full .counterUnparsable := by
  rw [against_of_sameChain h]
  cases hcurrent : copy.lastIncremental with
  | none => rfl
  | some current =>
    cases hlatest : published.lastIncremental with
    | none => rfl
    | some latest => exact absurd ⟨current, latest, hcurrent, hlatest⟩ h'

theorem against_of_not_stillOffered (h : SameChain copy published) (h' : BothCounted copy published)
    (h'' : ¬StillOffered copy published) : against copy published = .full .chainPruned := by
  obtain ⟨current, latest, hcurrent, hlatest⟩ := h'
  have hoffered : ¬(current ∈ published.markers ∨ current + 1 ∈ published.markers) :=
    fun hmem => h'' ⟨current, hcurrent, hmem⟩
  rw [against_of_sameChain h, hcurrent, hlatest]
  simp only [Bool.or_eq_true, decide_eq_true_eq, if_neg hoffered]

theorem against_of_stillOffered (h : SameChain copy published) {current latest : Int}
    (hcurrent : copy.lastIncremental = some current)
    (hlatest : published.lastIncremental = some latest) (h' : StillOffered copy published) :
    against copy published = .incremental (current + 1) latest := by
  obtain ⟨n, hn, hoffered⟩ := h'
  obtain rfl : n = current := Option.some.inj (hn.symm.trans hcurrent)
  rw [against_of_sameChain h, hcurrent, hlatest]
  simp only [Bool.or_eq_true, decide_eq_true_eq, if_pos hoffered]

/-- The plan for a copy and how it came about: the first condition that fails is the reason to fetch
    the whole index. -/
inductive Chosen (copy published : Manifest) : Plan → Prop
  | chainMismatch (h : ¬SameChain copy published) : Chosen copy published (.full .chainMismatch)
  | counterUnparsable (h : SameChain copy published) (h' : ¬BothCounted copy published) :
      Chosen copy published (.full .counterUnparsable)
  | chainPruned (h : SameChain copy published) (h' : BothCounted copy published)
      (h'' : ¬StillOffered copy published) : Chosen copy published (.full .chainPruned)
  | incremental {current latest : Int} (h : SameChain copy published)
      (hcurrent : copy.lastIncremental = some current)
      (hlatest : published.lastIncremental = some latest) (h' : StillOffered copy published) :
      Chosen copy published (.incremental (current + 1) latest)

theorem chosen_against (copy published : Manifest) :
    Chosen copy published (against copy published) := by
  by_cases hchain : SameChain copy published
  · by_cases hcounted : BothCounted copy published
    · by_cases hoffered : StillOffered copy published
      · obtain ⟨current, latest, hcurrent, hlatest⟩ := hcounted
        rw [against_of_stillOffered hchain hcurrent hlatest hoffered]
        exact .incremental hchain hcurrent hlatest hoffered
      · rw [against_of_not_stillOffered hchain hcounted hoffered]
        exact .chainPruned hchain hcounted hoffered
    · rw [against_of_not_bothCounted hchain hcounted]
      exact .counterUnparsable hchain hcounted
  · rw [against_of_not_sameChain hchain]
    exact .chainMismatch hchain

theorem Chosen.isIncremental_iff {plan : Plan} (h : Chosen copy published plan) :
    plan.isIncremental = true ↔
      SameChain copy published ∧ BothCounted copy published ∧ StillOffered copy published := by
  cases h with
  | chainMismatch h => simp [isIncremental, h]
  | counterUnparsable h h' => simp [isIncremental, h']
  | chainPruned h h' h'' => simp [isIncremental, h'']
  | incremental h hcurrent hlatest h' =>
    exact iff_of_true rfl ⟨h, ⟨_, _, hcurrent, hlatest⟩, h'⟩

/-- Each reason is given where it is the first to hold, and nowhere else. -/
theorem Chosen.reason?_iff {plan : Plan} (h : Chosen copy published plan) :
    (plan.reason? = some .chainMismatch ↔ ¬SameChain copy published) ∧
    (plan.reason? = some .counterUnparsable ↔
      SameChain copy published ∧ ¬BothCounted copy published) ∧
    (plan.reason? = some .chainPruned ↔
      SameChain copy published ∧ BothCounted copy published ∧ ¬StillOffered copy published) := by
  cases h with
  | chainMismatch h => simp [reason?, h]
  | counterUnparsable h h' => simp [reason?, h, h']
  | chainPruned h h' h'' => simp [reason?, h, h', h'']
  | incremental h hcurrent hlatest h' =>
    have hcounted : BothCounted copy published := ⟨_, _, hcurrent, hlatest⟩
    simp [reason?, h, hcounted, h']

/-- A full plan has one name, an incremental one a name for each counter between the two that are
read. -/
theorem Chosen.chunkNames {plan : Plan} (h : Chosen copy published plan)
    (hwritable : plan.Writable) :
    (plan.isIncremental = false → plan.chunkNames = [fullChunkName]) ∧
    (plan.isIncremental = true → ∃ current latest, copy.lastIncremental = some current ∧
      published.lastIncremental = some latest ∧ NamesBetween current latest plan.chunkNames) := by
  cases h with
  | chainMismatch | counterUnparsable | chainPruned => exact ⟨fun _ => rfl, nofun⟩
  | incremental h hcurrent hlatest h' =>
    exact ⟨nofun, fun _ => ⟨_, _, hcurrent, hlatest, namesBetween_chunkNames hwritable⟩⟩

theorem Chosen.not_writable_iff {plan : Plan} (h : Chosen copy published plan) :
    ¬plan.Writable ↔ Overlong copy published := by
  cases h with
  | chainMismatch h => exact iff_of_false (not_not_intro trivial) fun hlong => h hlong.1
  | counterUnparsable h h' =>
    refine iff_of_false (not_not_intro trivial) ?_
    rintro ⟨-, -, current, latest, -, hcurrent, hlatest, -⟩
    exact h' ⟨current, latest, hcurrent, hlatest⟩
  | chainPruned h h' h'' => exact iff_of_false (not_not_intro trivial) fun hlong => h'' hlong.2.1
  | @incremental current latest h hcurrent hlatest h' =>
    simp only [Writable, not_forall, not_lt, Overlong]
    constructor
    · rintro ⟨n, hfirst, hlast, hlong⟩
      exact ⟨h, h', current, latest, n, hcurrent, hlatest, hfirst, hlast, hlong⟩
    · rintro ⟨-, -, current', latest', n, hcurrent', hlatest', hfirst, hlast, hlong⟩
      obtain rfl := Option.some.inj (hcurrent.symm.trans hcurrent')
      obtain rfl := Option.some.inj (hlatest.symm.trans hlatest')
      exact ⟨n, hfirst, hlast, hlong⟩

theorem decide_eq_error_iff {fault : Fault} :
    Plan.decide (some copy) published = .error fault ↔
      ¬SameIndex copy published ∧ fault = .identityMismatch copy.indexId published.indexId ∨
      SameIndex copy published ∧ Overlong copy published ∧ fault = .invalidValue none := by
  have hlong := (chosen_against copy published).not_writable_iff
  by_cases hindex : SameIndex copy published
  · rw [decide_of_sameIndex hindex]
    by_cases hwritable : (against copy published).Writable
    · rw [named_of_writable hwritable]
      simp [hindex, ← hlong, hwritable]
    · rw [named_of_not_writable hwritable, Except.error.injEq]
      simp [hindex, hlong.mp hwritable, eq_comm]
  · rw [decide_of_not_sameIndex hindex, Except.error.injEq]
    simp [hindex, eq_comm]

/-- A plan that was made is the one that the conditions lead to, with all its names. -/
theorem eq_against_of_decide {plan : Plan} (h : Plan.decide (some copy) published = .ok plan) :
    plan = against copy published ∧ plan.Writable := by
  by_cases hindex : SameIndex copy published
  · rw [decide_of_sameIndex hindex] at h
    obtain ⟨hwritable, rfl⟩ := named_eq_ok_iff.mp h
    exact ⟨rfl, hwritable⟩
  · rw [decide_of_not_sameIndex hindex] at h
    cases h

theorem chosen_of_decide {plan : Plan} (h : Plan.decide (some copy) published = .ok plan) :
    Chosen copy published plan := by
  rw [(eq_against_of_decide h).1]
  exact chosen_against copy published

/-- **Between manifests that were read all counters can be written**, since they have no more digits
    than are ever read. -/
theorem writable_against {e e' : Entries} (hcopy : Manifest.ofEntries e = .ok copy)
    (hpublished : Manifest.ofEntries e' = .ok published) : (against copy published).Writable := by
  have hchosen := chosen_against copy published
  by_contra hnot
  obtain ⟨-, -, current, latest, n, hcurrent, hlatest, hfirst, hlast, hlong⟩ :=
    hchosen.not_writable_iff.mp hnot
  have hcurrentShort := Manifest.natAbs_lastIncremental_lt hcopy hcurrent
  have hlatestShort := Manifest.natAbs_lastIncremental_lt hpublished hlatest
  generalize 10 ^ Counter.digitLimit = bound at *
  omega

end Decide

/-- **The plan is decided by four conditions, and an incremental plan names every chunk once.** Two
    different indexes have no plan; nor has a range with a counter that has too many digits; and the
    first of the other conditions that fails is the reason to fetch the whole index. -/
theorem decide_by_conditions (copy published : Manifest) :
    Plan.decide none published = .ok (.full .noLocalState) ∧
    (∀ fault, Plan.decide (some copy) published = .error fault ↔
      ¬SameIndex copy published ∧ fault = .identityMismatch copy.indexId published.indexId ∨
      SameIndex copy published ∧ Overlong copy published ∧ fault = .invalidValue none) ∧
    ∀ plan, Plan.decide (some copy) published = .ok plan →
      (plan.isIncremental = true ↔
        SameChain copy published ∧ BothCounted copy published ∧ StillOffered copy published) ∧
      ((plan.reason? = some .chainMismatch ↔ ¬SameChain copy published) ∧
        (plan.reason? = some .counterUnparsable ↔
          SameChain copy published ∧ ¬BothCounted copy published) ∧
        (plan.reason? = some .chainPruned ↔
          SameChain copy published ∧ BothCounted copy published ∧ ¬StillOffered copy published)) ∧
      (plan.isIncremental = false → plan.chunkNames = [fullChunkName]) ∧
      (plan.isIncremental = true → ∃ current latest, copy.lastIncremental = some current ∧
        published.lastIncremental = some latest ∧ NamesBetween current latest plan.chunkNames) := by
  refine ⟨rfl, fun fault => decide_eq_error_iff, fun plan hplan => ?_⟩
  have hchosen := chosen_of_decide hplan
  have hwritable := (eq_against_of_decide hplan).2
  exact ⟨hchosen.isIncremental_iff, hchosen.reason?_iff, hchosen.chunkNames hwritable⟩

/-- A manifest of one index and one chain, with the chunk at its counter on offer. -/
def standingAt (n : Int) : Manifest where
  entries := .empty
  indexId := some "central"
  publishedAt := none
  chainId := some "c1"
  lastIncremental := some n
  markers := [n]

/-- The least counter that has too many digits. -/
def overlongCounter : Int := (10 ^ Counter.digitLimit : Nat)

/-- **Where the next chunk has a counter with too many digits there is no plan**, though nothing
    else stands against the chunks. -/
theorem refused_overlong :
    SameIndex (standingAt (overlongCounter - 1)) (standingAt overlongCounter) ∧
      SameChain (standingAt (overlongCounter - 1)) (standingAt overlongCounter) ∧
      BothCounted (standingAt (overlongCounter - 1)) (standingAt overlongCounter) ∧
      StillOffered (standingAt (overlongCounter - 1)) (standingAt overlongCounter) ∧
      Plan.decide (some (standingAt (overlongCounter - 1))) (standingAt overlongCounter) =
        .error (.invalidValue none) := by
  have hindex : SameIndex (standingAt (overlongCounter - 1)) (standingAt overlongCounter) :=
    ⟨_, rfl, rfl⟩
  have hchain : SameChain (standingAt (overlongCounter - 1)) (standingAt overlongCounter) :=
    ⟨_, rfl, rfl⟩
  have hcounted : BothCounted (standingAt (overlongCounter - 1)) (standingAt overlongCounter) :=
    ⟨_, _, rfl, rfl⟩
  have hoffered : StillOffered (standingAt (overlongCounter - 1)) (standingAt overlongCounter) :=
    ⟨_, rfl, .inr (by simp [standingAt])⟩
  have hlong : Overlong (standingAt (overlongCounter - 1)) (standingAt overlongCounter) := by
    refine ⟨hchain, hoffered, _, _, overlongCounter, rfl, rfl, ?_, Int.le_refl _, ?_⟩
    · omega
    · exact le_of_eq (Int.natAbs_natCast _).symm
  exact ⟨hindex, hchain, hcounted, hoffered, decide_eq_error_iff.mpr (.inr ⟨hindex, hlong, rfl⟩)⟩

end Plan

end IndexChain
