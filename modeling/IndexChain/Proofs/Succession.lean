import IndexChain.Proofs.Plan
import IndexChain.Proofs.Session
import IndexChain.Rehearsal
import Mathlib.Logic.Relation

/-!
# Succession — one session after another

When a session has been finished, the copy holds a manifest, and the next session plans from it.
What that plan will be follows from the published manifest alone, **provided that what was stored is
read back as what was published** (`Manifest.ofPayload_of_ofPayload`).

The places are any that do not fail (`Depots.Reliable`). What happens between the opening and the
end of the first session is up to the caller (`Session.Use`), and so is everything afterwards that
leaves the resources as they are.
-/

namespace IndexChain

variable {σ : Type}

/-! ## 1. Places that do not fail -/

/-- Nothing was stored, and what could be used can still be used. -/
def Depots.Keeps (view : σ → Side → Text → Option Bytes) (ready : Side → σ → Prop) (w w' : σ) :
    Prop :=
  (∀ side name, view w' side name = view w side name) ∧ ∀ side, ready side w → ready side w'

/-- The places keep resources and do not fail as long as they are ready. `view` is what they
hold. -/
structure Depots.Reliable (D : Depots σ) (view : σ → Side → Text → Option Bytes)
    (ready : Side → σ → Prop) : Prop where
  /-- A resource that is there is opened, read and closed. -/
  present : ∀ {side name content w}, ready side w → view w side name = some content →
    ∃ stream w₁ w₂ w₃, D.fetch side name w = (.ok stream, w₁) ∧
      D.read stream none w₁ = (.ok content, w₂) ∧ D.shut stream w₂ = (.ok (), w₃)
  /-- Before their end the places keep what they hold. -/
  keeps : D.StayWithin (Depots.Keeps view ready)
  /-- Streams of the remote place can be closed. -/
  shut : ∀ {i w}, ready .remote w → ∃ w', D.shut i w = (.ok (), w')
  /-- Storing changes the one resource. -/
  store : ∀ {name content w}, ready .copy w →
    ∃ w', D.store name content w = (.ok (), w') ∧ view w' .copy name = some content ∧
      (∀ other, other ≠ name → view w' .copy other = view w .copy other) ∧
      (∀ other, view w' .remote other = view w .remote other) ∧ ready .copy w'
  /-- Releasing a place changes no resource, and leaves the other place ready. -/
  release : ∀ {side w}, ready side w →
    ∃ w', D.release side w = (.ok (), w') ∧ (∀ s name, view w' s name = view w s name) ∧
      ∀ other, other ≠ side → ready other w → ready other w'

/-! ### Plans from a manifest to itself -/

namespace Plan

theorem against_self (m : Manifest) :
    against m m =
      if m.chainId = none then .full .chainMismatch
      else
        match m.lastIncremental with
        | none => .full .counterUnparsable
        | some n =>
          if n ∈ m.markers ∨ n + 1 ∈ m.markers then .incremental (n + 1) n
          else .full .chainPruned := by
  unfold against
  cases hchain : m.chainId with
  | none => simp
  | some chain =>
    cases hlast : m.lastIncremental with
    | none => simp
    | some n => simp

/-- A plan from a manifest to itself needs no counters. -/
theorem decide_self {m : Manifest} (hid : m.indexId.isSome = true) :
    Plan.decide (some m) m = .ok (against m m) := by
  obtain ⟨id, hid⟩ := Option.isSome_iff_exists.mp hid
  have hwritable : (against m m).Writable := by
    by_contra hnot
    obtain ⟨-, -, current, latest, n, hcurrent, hlatest, hfirst, hlast, -⟩ :=
      (chosen_against m m).not_writable_iff.mp hnot
    obtain rfl := Option.some.inj (hcurrent.symm.trans hlatest)
    omega
  exact decide_of_writable ⟨id, hid, hid⟩ hwritable

/-- There is no chunk after the newest one. -/
theorem chunkNames_incremental_succ (n : Int) : (incremental (n + 1) n).chunkNames = [] := by
  simp [chunkNames, counters]

end Plan

namespace Session

/-! ## 2. What callers do before the end -/

/-- A step of a caller before the end of a session, however it ends. -/
inductive Use (D : Depots σ) : Session × σ → Session × σ → Prop
  | iterate (x : Session × σ) : Use D x (Session.iterate D x).2
  | next (i : Nat) (x : Session × σ) : Use D x (Session.next D i x).2
  | closePass (i : Nat) (x : Session × σ) : Use D x (onPass i (Delivery.close D) x).2
  | read (i : StreamId) (size : Option Nat) (x : Session × σ) :
      Use D x (onDepots (D.read i size) x).2
  | shut (i : StreamId) (x : Session × σ) : Use D x (onDepots (D.shut i) x).2

/-- The session goes on as it was opened, and the places are related. -/
structure GoesOn (R : σ → σ → Prop) (x y : Session × σ) : Prop where
  published : y.1.published = x.1.published
  hasCopy : y.1.hasCopy = x.1.hasCopy
  comment : y.1.comment = x.1.comment
  closed : y.1.closed = x.1.closed
  related : R x.2 y.2

section GoesOn

variable {D : Depots σ} {R : σ → σ → Prop}

theorem GoesOn.refl (hD : D.StayWithin R) (x : Session × σ) : GoesOn R x x :=
  ⟨rfl, rfl, rfl, rfl, hD.refl x.2⟩

theorem GoesOn.trans (hD : D.StayWithin R) {x y z : Session × σ} (hxy : GoesOn R x y)
    (hyz : GoesOn R y z) : GoesOn R x z :=
  ⟨hyz.published.trans hxy.published, hyz.hasCopy.trans hxy.hasCopy, hyz.comment.trans hxy.comment,
    hyz.closed.trans hxy.closed, hD.trans _ _ _ hxy.related hyz.related⟩

theorem onPass_goesOn {α : Type} {step : Run (Delivery × σ) α}
    (hstep : Run.Within (fun x y => R x.2 y.2) step) (i : Nat) (x : Session × σ) :
    GoesOn R x (onPass i step x).2 :=
  ⟨rfl, rfl, rfl, rfl, hstep (x.1.passes[i]?.getD (.ofNames []), x.2)⟩

theorem onDepots_goesOn {α : Type} {step : Run σ α} (hstep : Run.Within R step) (x : Session × σ) :
    GoesOn R x (onDepots step x).2 :=
  ⟨rfl, rfl, rfl, rfl, hstep x.2⟩

theorem iterate_goesOn (hD : D.StayWithin R) (x : Session × σ) : GoesOn R x (iterate D x).2 := by
  obtain ⟨s, w⟩ := x
  unfold iterate
  by_cases hclosed : s.closed = true
  · simp only [hclosed, if_true]
    exact .refl hD _
  simp only [hclosed]
  cases hlive : s.live with
  | none => exact ⟨rfl, rfl, rfl, rfl, hD.refl w⟩
  | some i =>
    have hpass := onPass_goesOn (Delivery.close_within hD) i (s, w)
    simp only
    rcases hclose : onPass i (Delivery.close D) (s, w) with ⟨fault | ⟨⟩, s', w'⟩
    · rw [hclose] at hpass
      simpa using hpass
    · rw [hclose] at hpass
      exact ⟨hpass.published, hpass.hasCopy, hpass.comment, hpass.closed, hpass.related⟩

/-- A caller's steps leave alone what the end of the session depends on. -/
theorem Use.goesOn (hD : D.StayWithin R) {x y : Session × σ} (h : Use D x y) : GoesOn R x y := by
  cases h with
  | iterate => exact iterate_goesOn hD x
  | next i => exact onPass_goesOn (Delivery.next_within hD) i x
  | closePass i => exact onPass_goesOn (Delivery.close_within hD) i x
  | read i size => exact onDepots_goesOn (hD.read i size) x
  | shut i => exact onDepots_goesOn (hD.shut i) x

theorem goesOn_of_uses (hD : D.StayWithin R) {x y : Session × σ}
    (h : Relation.ReflTransGen (Use D) x y) : GoesOn R x y := by
  induction h with
  | refl => exact .refl hD x
  | tail _ huse ih => exact ih.trans hD (huse.goesOn hD)

end GoesOn

/-! ## 3. The end of the first session -/

section Reliable

variable {D : Depots σ} {view : σ → Side → Text → Option Bytes} {ready : Side → σ → Prop}

theorem shutCurrent_reliable (hD : D.Reliable view ready) (d : Delivery) {w : σ}
    (hready : ready .remote w) : ∃ w', d.shutCurrent D w = (.ok (), w') := by
  unfold Delivery.shutCurrent
  cases d.current with
  | none => exact ⟨w, rfl⟩
  | some chunk => exact hD.shut hready

theorem closeLive_reliable (hD : D.Reliable view ready) (s : Session) {w : σ}
    (hready : ready .remote w) :
    ∃ s' w', closeLive D (s, w) = (.ok (), s', w') ∧
      GoesOn (Depots.Keeps view ready) (s, w) (s', w') := by
  unfold closeLive
  cases hlive : s.live with
  | none => exact ⟨s, w, by simp only [hlive], .refl hD.keeps _⟩
  | some i =>
    -- closing a pass does to the places what shutting its chunk does
    have hpass := onPass_goesOn (Delivery.close_within hD.keeps) i (s, w)
    obtain ⟨w', hshut⟩ := shutCurrent_reliable hD (s.passes[i]?.getD (.ofNames [])) hready
    have hclose : (onPass i (Delivery.close D) (s, w)).1 = .ok () := by
      show (Delivery.close D (s.passes[i]?.getD (.ofNames []), w)).1 = .ok ()
      rw [Delivery.close_eq, hshut]
    rcases hon : onPass i (Delivery.close D) (s, w) with ⟨o, s', w''⟩
    rw [hon] at hpass hclose
    obtain rfl : o = .ok () := hclose
    refine ⟨{ s' with live := none }, w'', by simp only [hlive, hon], ?_⟩
    exact ⟨hpass.published, hpass.hasCopy, hpass.comment, hpass.closed, hpass.related⟩

/-- What is logged about a stored manifest. -/
def noteStored (D : Depots σ) (published : Manifest) (w : σ) : σ :=
  D.note (.ofPart .info "finalizer" "Stored index metadata locally"
    [("index_id", .ofText? published.indexId)]) w

/-- The handover stores the manifest in the copy, and changes nothing in the remote place. -/
theorem finalize_reliable (hD : D.Reliable view ready) {published : Manifest}
    {comment : Option Text} {now : Moment} {w : σ} {content : Bytes} (hready : ∀ side, ready side w)
    (hcontent : published.entries.toBytes? comment now = some content) :
    ∃ w', Handover.finalize D true published comment now w = (.ok (), w') ∧
      view w' .copy Manifest.resourceName = some content ∧
      ∀ name, view w' .remote name = view w .remote name := by
  obtain ⟨w₁, hrelease, hview₁, hready₁⟩ := hD.release (hready .remote)
  obtain ⟨w₂, hstore, hstored, -, hremote₂, hready₂⟩ :=
    hD.store (hready₁ .copy (by decide) (hready .copy))
  have hlog : Depots.Keeps view ready w₂ (noteStored D published w₂) :=
    hD.keeps.note _ _ w₂ (by decide)
  obtain ⟨w₃, hrelease₃, hview₃, -⟩ := hD.release (hlog.2 .copy hready₂)
  have hrecord : Handover.record D published comment now w₁ =
      (.ok (), noteStored D published w₂) := by
    simp only [Handover.record, hcontent]
    rw [Run.bind_of_ok hstore]
    rfl
  have hbody : (D.release .remote >>= fun _ => Handover.record D published comment now) w =
      (.ok (), noteStored D published w₂) := by
    rw [Run.bind_of_ok hrelease, hrecord]
  refine ⟨w₃, Run.ensure_eq_ok_iff.mpr ⟨_, hbody, hrelease₃⟩, ?_, ?_⟩
  · rw [hview₃, hlog.1, hstored]
  · intro name
    rw [hview₃, hlog.1, hremote₂, hview₁]

/-- Finishing a session stores its manifest in the copy, and changes nothing in the remote place. -/
theorem finish_reliable (hD : D.Reliable view ready) {s : Session} {w : σ} {now : Moment}
    {content : Bytes} (hopen : s.closed = false) (hcopy : s.hasCopy = true)
    (hready : ∀ side, ready side w)
    (hcontent : s.published.entries.toBytes? s.comment now = some content) :
    ∃ s' w', finish D now (s, w) = (.ok (), s', w') ∧
      view w' .copy Manifest.resourceName = some content ∧
      ∀ name, view w' .remote name = view w .remote name := by
  obtain ⟨s₁, w₁, hclose, hgoes⟩ := closeLive_reliable hD s.ended (hready .remote)
  obtain ⟨hview, hready₁⟩ := hgoes.related
  have hpublished : s₁.published = s.published := hgoes.published
  have hcomment : s₁.comment = s.comment := hgoes.comment
  have hcopy₁ : s₁.hasCopy = true := hgoes.hasCopy.trans hcopy
  obtain ⟨w₂, hfinalize, hstored, hremote⟩ :=
    finalize_reliable hD (fun side => hready₁ side (hready side)) hcontent
  refine ⟨s₁, w₂, ?_, hstored, fun name => (hremote name).trans (hview _ _)⟩
  rw [finish_of_open hopen, hclose]
  simp only [hpublished, hcomment, hcopy₁]
  exact onDepots_eq_iff.mpr ⟨w₂, hfinalize, rfl⟩

/-! ## 4. The next session -/

/-- A manifest that is there is loaded, whatever comes of reading its text. -/
theorem load_reliable (hD : D.Reliable view ready) {side : Side} {w : σ} {content : Bytes}
    (hready : ready side w) (hcontent : view w side Manifest.resourceName = some content) :
    ∃ stream w₁ w₂, D.fetch side Manifest.resourceName w = (.ok stream, w₁) ∧
      loadManifest D stream w₁ = (Manifest.ofPayload (.bytes content), w₂) ∧
      Depots.Keeps view ready w w₂ := by
  obtain ⟨stream, w₁, w₂, w₃, hfetch, hread, hshut⟩ := hD.present hready hcontent
  have hload : loadManifest D stream w₁ = (Manifest.ofPayload (.bytes content), w₃) :=
    loadManifest_of_read (Run.ensure_eq_ok_iff.mpr ⟨w₂, hread, hshut⟩)
  exact ⟨stream, w₁, w₃, hfetch, hload, hD.keeps.trans _ _ _ ((hD.keeps.fetch _ _).of_eq hfetch)
    ((loadManifest_within hD.keeps stream).of_eq hload)⟩

theorem fetch_manifest_reliable (hD : D.Reliable view ready) {side : Side} {w : σ} {content : Bytes}
    {m : Manifest} (hready : ready side w)
    (hcontent : view w side Manifest.resourceName = some content)
    (hm : Manifest.ofPayload (.bytes content) = .ok m) :
    ∃ stream w₁ w₂, D.fetch side Manifest.resourceName w = (.ok stream, w₁) ∧
      loadManifest D stream w₁ = (.ok m, w₂) ∧ Depots.Keeps view ready w w₂ :=
  hm ▸ load_reliable hD hready hcontent

/-- Between two manifests that can be read it only remains to plan. -/
theorem establish_eq_settle (hD : D.Reliable view ready) (comment : Option Text) {w : σ}
    {content content' : Bytes} {published copy : Manifest} (hready : ∀ side, ready side w)
    (hremote : view w .remote Manifest.resourceName = some content)
    (hpublished : Manifest.ofPayload (.bytes content) = .ok published)
    (hlocal : view w .copy Manifest.resourceName = some content')
    (hcopy : Manifest.ofPayload (.bytes content') = .ok copy) :
    ∃ w', establish D true comment w = settle D true comment published (some copy) w' := by
  obtain ⟨stream, w₁, w₂, hfetch, hload, hkeeps⟩ :=
    fetch_manifest_reliable hD (hready .remote) hremote hpublished
  obtain ⟨stream', w₃, w₄, hfetch', hload', -⟩ :=
    fetch_manifest_reliable hD (hkeeps.2 .copy (hready .copy)) ((hkeeps.1 _ _).trans hlocal) hcopy
  have hcopied : loadCopy D w₂ = (.ok (some copy), w₄) :=
    loadCopy_eq_ok_iff.mpr (.present hfetch' hload')
  refine ⟨w₄, ?_⟩
  rw [establish_eq, Run.bind_of_ok hfetch, Run.bind_of_ok hload]
  exact Run.bind_of_ok hcopied

/-- Between two manifests that can be read a session is opened, if there is a plan. -/
theorem establish_reliable (hD : D.Reliable view ready) (comment : Option Text) {w : σ}
    {content content' : Bytes} {published copy : Manifest} {plan : Plan} {publishedAt : Moment}
    (hready : ∀ side, ready side w)
    (hremote : view w .remote Manifest.resourceName = some content)
    (hpublished : Manifest.ofPayload (.bytes content) = .ok published)
    (hlocal : view w .copy Manifest.resourceName = some content')
    (hcopy : Manifest.ofPayload (.bytes content') = .ok copy)
    (hplan : Plan.decide (some copy) published = .ok plan)
    (hat : published.publishedAt = some publishedAt) :
    ∃ w', establish D true comment w =
      (.ok ⟨published, publishedAt, some copy, true, plan, comment, [], none, false⟩, w') := by
  obtain ⟨w', hsettle⟩ := establish_eq_settle hD comment hready hremote hpublished hlocal hcopy
  refine ⟨noteEstablished D published plan (notePlan D plan w'), ?_⟩
  rw [hsettle]
  simp only [settle, hplan, hat]

/-- A session that was opened has read what the remote place holds. -/
theorem published_reliable (hD : D.Reliable view ready) {w w₁ : σ} {content : Bytes}
    {comment : Option Text} {s : Session} (hready : ready .remote w)
    (hcontent : view w .remote Manifest.resourceName = some content)
    (hs : establish D true comment w = (.ok s, w₁)) :
    Manifest.ofPayload (.bytes content) = .ok s.published := by
  obtain ⟨stream, u₁, u₂, u₃, hfetch, hload, -, -⟩ := (establish_eq_ok_iff.mp hs).reads
  obtain ⟨stream', v₁, v₂, v₃, hfetch', hread, -⟩ := hD.present hready hcontent
  rw [hfetch] at hfetch'
  cases hfetch'
  obtain ⟨content', hreadAndShut, hm⟩ := loadManifest_eq_ok_iff.mp hload
  obtain ⟨_, hread', -⟩ := Run.ensure_eq_ok_iff.mp hreadAndShut
  rw [hread] at hread'
  cases hread'
  exact hm

/-- A session was opened against a published manifest, was used in any way and is then finished.
    What the copy holds afterwards is read as the published manifest, and so is what the remote
    place holds. -/
theorem found_after_finish (hD : D.Reliable view ready) {w : σ} (hready : ∀ side, ready side w)
    {content : Bytes} (hcontent : view w .remote Manifest.resourceName = some content)
    {comment : Option Text} (hcomment : ∀ c ∈ comment.getD [], c.val < 256)
    {s s₁ : Session} {w₁ w₂ : σ} (hs : establish D true comment w = (.ok s, w₁))
    (huses : Relation.ReflTransGen (Use D) (s, w₁) (s₁, w₂)) (now : Moment) :
    ∃ s₂ w₃ stored, finish D now (s₁, w₂) = (.ok (), s₂, w₃) ∧
      view w₃ .remote Manifest.resourceName = some content ∧
      Manifest.ofPayload (.bytes content) = .ok s.published ∧
      view w₃ .copy Manifest.resourceName = some stored ∧
      Manifest.ofPayload (.bytes stored) = .ok s.published := by
  have hestablished := establish_eq_ok_iff.mp hs
  have hpublished := published_reliable hD (hready .remote) hcontent hs
  have hgoes := goesOn_of_uses hD.keeps huses
  have hkeeps : Depots.Keeps view ready w w₂ :=
    hD.keeps.trans _ _ _ ((establish_within hD.keeps true comment).of_eq hs) hgoes.related
  obtain ⟨stored, hstored⟩ := Entries.exists_toBytes? s.published.entries now hcomment
  have hstored₁ : s₁.published.entries.toBytes? s₁.comment now = some stored := by
    rw [hgoes.published, hgoes.comment, hestablished.comment_eq, hstored]
  obtain ⟨s₂, w₃, hfinish, hcopied, hremote⟩ := finish_reliable hD
    (hgoes.closed.trans hestablished.isFresh.closed) (hgoes.hasCopy.trans hestablished.hasCopy_eq)
    (fun side => hkeeps.2 side (hready side)) hstored₁
  exact ⟨s₂, w₃, stored, hfinish, (hremote _).trans ((hkeeps.1 _ _).trans hcontent),
    hpublished, hcopied, Manifest.ofPayload_of_ofPayload hpublished hstored⟩

/-- **What the next session finds.** A session was opened against a published manifest that names
    its index, was used in any way and then finished. Whatever happened since that left the
    resources as they were, a new session can be opened; both its manifests are the published one,
    and its plan is the one that follows from that manifest alone. -/
theorem establish_after_finish {D' : Depots σ} {ready' : Side → σ → Prop}
    (hD : D.Reliable view ready) (hD' : D'.Reliable view ready') {w : σ}
    (hready : ∀ side, ready side w) {content : Bytes} {m : Manifest}
    (hcontent : view w .remote Manifest.resourceName = some content)
    (hm : Manifest.ofPayload (.bytes content) = .ok m) (hid : m.indexId.isSome = true)
    {comment : Option Text} (hcomment : ∀ c ∈ comment.getD [], c.val < 256)
    {s s₁ : Session} {w₁ w₂ : σ} (hs : establish D true comment w = (.ok s, w₁))
    (huses : Relation.ReflTransGen (Use D) (s, w₁) (s₁, w₂)) (now : Moment) :
    ∃ s₂ w₃, finish D now (s₁, w₂) = (.ok (), s₂, w₃) ∧
      ∀ comment' w₄, (∀ side name, view w₄ side name = view w₃ side name) →
        (∀ side, ready' side w₄) →
        ∃ t w₅, establish D' true comment' w₄ = (.ok t, w₅) ∧
          s.published = m ∧ t.published = m ∧ t.copy = some m ∧
          (m.chainId = none → t.plan = .full .chainMismatch) ∧
          (m.chainId ≠ none → m.lastIncremental = none → t.plan = .full .counterUnparsable) ∧
          ∀ n, m.chainId ≠ none → m.lastIncremental = some n →
            ((n ∈ m.markers ∨ n + 1 ∈ m.markers) →
              t.plan.isIncremental = true ∧ t.plan.chunkNames = []) ∧
            (¬(n ∈ m.markers ∨ n + 1 ∈ m.markers) → t.plan = .full .chainPruned) := by
  obtain ⟨s₂, w₃, stored, hfinish, hremote, hread, hcopied, hreadAgain⟩ :=
    found_after_finish hD hready hcontent hcomment hs huses now
  -- the first session read the published manifest
  have hpublished : s.published = m := by
    rw [hm] at hread
    exact (Except.ok.inj hread).symm
  rw [hpublished] at hread hreadAgain
  refine ⟨s₂, w₃, hfinish, fun comment' w₄ hview hready' => ?_⟩
  obtain ⟨w₅, hestablish⟩ := establish_reliable hD' comment' hready' ((hview _ _).trans hremote) hm
    ((hview _ _).trans hcopied) hreadAgain (Plan.decide_self hid)
    (hpublished ▸ (establish_eq_ok_iff.mp hs).publishedAt_eq)
  refine ⟨_, w₅, hestablish, hpublished, rfl, rfl, ?_, ?_, ?_⟩
  · intro hchain
    simp only [Plan.against_self, hchain, if_true]
  · intro hchain hlast
    simp only [Plan.against_self, hchain, if_false, hlast]
  · intro n hchain hlast
    simp only [Plan.against_self, hchain, if_false, hlast]
    constructor
    · intro hmarker
      rw [if_pos hmarker]
      exact ⟨rfl, Plan.chunkNames_incremental_succ n⟩
    · intro hmarker
      rw [if_neg hmarker]

end Reliable

end Session

/-! ## 5. Rehearsals without a script -/

namespace Rehearsal

/-- Nothing is told to fail. -/
structure IsUnscripted (r : Rehearsal) : Prop where
  failOpen : ∀ side, (r.place side).failOpen = []
  failClose : ∀ side, (r.place side).failClose = []
  failRead : ∀ side, (r.place side).failRead = []
  failStore : r.copy.failStore = none
  failRelease : ∀ side, (r.place side).failRelease = none
  streams : ∀ s ∈ r.streams, s.failClose = none ∧ s.failRead = none

/-- What a place holds under a name. -/
def holds (r : Rehearsal) (side : Side) (name : Text) : Option Bytes :=
  Pairs.get? name (r.place side).resources

/-- The places are as they were. -/
def SamePlaces (r r' : Rehearsal) : Prop := r'.remote = r.remote ∧ r'.copy = r.copy

theorem SamePlaces.place {r r' : Rehearsal} (h : SamePlaces r r') (side : Side) :
    r'.place side = r.place side := by
  cases side
  · exact h.1
  · exact h.2

/-- Streams that are not told to fail may come or change. -/
theorem keeps_of_samePlaces {r r' : Rehearsal} (h : SamePlaces r r')
    (hstreams : r.IsUnscripted → ∀ s ∈ r'.streams, s.failClose = none ∧ s.failRead = none) :
    Depots.Keeps holds (fun _ => IsUnscripted) r r' := by
  refine ⟨fun side name => by simp only [holds, h.place side], fun _ hr => ?_⟩
  constructor
  · exact fun side => by rw [h.place side, hr.failOpen side]
  · exact fun side => by rw [h.place side, hr.failClose side]
  · exact fun side => by rw [h.place side, hr.failRead side]
  · rw [h.2, hr.failStore]
  · exact fun side => by rw [h.place side, hr.failRelease side]
  · exact hstreams hr

theorem fetch_keeps (side : Side) (name : Text) :
    Run.Within (Depots.Keeps holds fun _ => IsUnscripted) (fetch side name) := by
  intro r
  unfold fetch
  simp only
  split
  · exact keeps_of_samePlaces ⟨rfl, rfl⟩ fun hr => hr.streams
  split
  · exact keeps_of_samePlaces ⟨rfl, rfl⟩ fun hr => hr.streams
  · refine keeps_of_samePlaces ⟨rfl, rfl⟩ fun hr s hs => ?_
    rcases List.mem_append.mp hs with hs | hs
    · exact hr.streams s hs
    · obtain rfl := List.mem_singleton.mp hs
      simp [hr.failClose side, hr.failRead side, Pairs.get?]

/-- Setting a stream to one that is not told to fail. -/
theorem keeps_set_stream {r r' : Rehearsal} {i : Nat} {s : Stream} (h : SamePlaces r r')
    (hstreams : r'.streams = r.streams.set i s)
    (hs : r.IsUnscripted → s.failClose = none ∧ s.failRead = none) :
    Depots.Keeps holds (fun _ => IsUnscripted) r r' := by
  refine keeps_of_samePlaces h fun hr s' hs' => ?_
  rw [hstreams] at hs'
  rcases List.mem_or_eq_of_mem_set hs' with hs' | rfl
  · exact hr.streams s' hs'
  · exact hs hr

theorem read_keeps (i : StreamId) (size : Option Nat) :
    Run.Within (Depots.Keeps holds fun _ => IsUnscripted) (read i size) := by
  intro r
  unfold read
  split
  · exact keeps_of_samePlaces ⟨rfl, rfl⟩ fun hr => hr.streams
  rename_i s hs
  split
  · exact keeps_of_samePlaces ⟨rfl, rfl⟩ fun hr => hr.streams
  split
  · exact keeps_of_samePlaces ⟨rfl, rfl⟩ fun hr => hr.streams
  · exact keeps_set_stream ⟨rfl, rfl⟩ rfl fun hr => hr.streams s (List.mem_of_getElem? hs)

theorem shut_keeps (i : StreamId) :
    Run.Within (Depots.Keeps holds fun _ => IsUnscripted) (shut i) := by
  intro r
  unfold shut
  split
  · exact keeps_of_samePlaces ⟨rfl, rfl⟩ fun hr => hr.streams
  rename_i s hs
  split
  · exact keeps_of_samePlaces ⟨rfl, rfl⟩ fun hr => hr.streams
  split
  · exact keeps_set_stream ⟨rfl, rfl⟩ rfl fun hr =>
      ⟨rfl, (hr.streams s (List.mem_of_getElem? hs)).2⟩
  · exact keeps_set_stream ⟨rfl, rfl⟩ rfl fun hr => hr.streams s (List.mem_of_getElem? hs)

theorem stayWithin_keeps : depots.StayWithin (Depots.Keeps holds fun _ => IsUnscripted) where
  refl _ := ⟨fun _ _ => rfl, fun _ h => h⟩
  trans _ _ _ h h' :=
    ⟨fun side name => (h'.1 side name).trans (h.1 side name), fun side hr => h'.2 side
      (h.2 side hr)⟩
  fetch := fetch_keeps
  read := read_keeps
  shut := shut_keeps
  note _ _ _ _ := ⟨fun _ _ => rfl, fun _ h => h⟩

/-- A stream that was just opened, and is not told to fail. -/
def freshStream (side : Side) (name : Text) (content : Bytes) : Stream :=
  ⟨side, name, content, none, none, false⟩

/-- A rehearsal with a further stream. -/
def withStream (r : Rehearsal) (side : Side) (name : Text) (content : Bytes) : Rehearsal :=
  ({ r with streams := r.streams ++ [freshStream side name content] }).record side .opened name

theorem fetch_of_holds {r : Rehearsal} (hr : r.IsUnscripted) {side : Side} {name : Text}
    {content : Bytes} (h : r.holds side name = some content) :
    fetch side name r = (.ok r.streams.length, r.withStream side name content) := by
  unfold holds at h
  simp only [fetch, hr.failOpen side, hr.failClose side, hr.failRead side, h, Pairs.get?]
  rfl

theorem read_withStream (r : Rehearsal) (side : Side) (name : Text) (content : Bytes) :
    (read r.streams.length none (r.withStream side name content)).1 = .ok content := by
  have hstream : (r.withStream side name content).streams[r.streams.length]? =
      some (freshStream side name content) := List.getElem?_concat_length
  unfold read
  simp only [hstream]
  simp [freshStream]

theorem shut_ok {r : Rehearsal} (hr : r.IsUnscripted) (i : StreamId) :
    ∃ r', shut i r = (.ok (), r') := by
  unfold shut
  split
  · exact ⟨_, rfl⟩
  rename_i s hs
  simp only [(hr.streams s (List.mem_of_getElem? hs)).1]
  split
  · exact ⟨_, rfl⟩
  · exact ⟨_, rfl⟩

/-- A rehearsal with a resource of the copy. -/
def withResource (r : Rehearsal) (name : Text) (content : Bytes) : Rehearsal :=
  ({ r with copy := { r.copy with resources := Pairs.set name content r.copy.resources } }).record
    .copy .stored name

theorem store_eq {r : Rehearsal} (hr : r.IsUnscripted) (name : Text) (content : Bytes) :
    store name content r = (.ok (), r.withResource name content) := by
  unfold store
  rw [hr.failStore]
  rfl

theorem IsUnscripted.withResource {r : Rehearsal} (hr : r.IsUnscripted) (name : Text)
    (content : Bytes) : (r.withResource name content).IsUnscripted where
  failOpen
    | .remote => hr.failOpen .remote
    | .copy => hr.failOpen .copy
  failClose
    | .remote => hr.failClose .remote
    | .copy => hr.failClose .copy
  failRead
    | .remote => hr.failRead .remote
    | .copy => hr.failRead .copy
  failStore := hr.failStore
  failRelease
    | .remote => hr.failRelease .remote
    | .copy => hr.failRelease .copy
  streams := hr.streams

/-- A rehearsal in which a place was released. -/
def withoutPlace (r : Rehearsal) (side : Side) : Rehearsal :=
  (r.setPlace side { r.place side with released := true }).record side .released []

theorem release_eq {r : Rehearsal} (hr : r.IsUnscripted) (side : Side) :
    release side r = (.ok (), r.withoutPlace side) := by
  simp only [release, withoutPlace, hr.failRelease side]

/-- That a place was released does not show. -/
theorem withoutPlace_keeps (r : Rehearsal) (side : Side) :
    Depots.Keeps holds (fun _ => IsUnscripted) r (r.withoutPlace side) := by
  refine ⟨fun side' name => by cases side <;> cases side' <;> rfl, fun _ hr => ?_⟩
  refine ⟨fun side' => ?_, fun side' => ?_, fun side' => ?_, ?_, fun side' => ?_, ?_⟩
  · have h := hr.failOpen side'
    cases side <;> cases side' <;> exact h
  · have h := hr.failClose side'
    cases side <;> cases side' <;> exact h
  · have h := hr.failRead side'
    cases side <;> cases side' <;> exact h
  · cases side <;> exact hr.failStore
  · have h := hr.failRelease side'
    cases side <;> cases side' <;> exact h
  · cases side <;> exact hr.streams

/-- **A rehearsal without a script does not fail.** -/
theorem reliable : depots.Reliable holds fun _ => IsUnscripted where
  present := by
    intro side name content r hr h
    have hfetched := fetch_keeps side name r
    rw [fetch_of_holds hr h] at hfetched
    have hread := read_withStream r side name content
    have hkept := read_keeps r.streams.length none (r.withStream side name content)
    obtain ⟨r', hshut⟩ := shut_ok (hkept.2 side (hfetched.2 side hr)) r.streams.length
    exact ⟨_, _, _, r', fetch_of_holds hr h, Prod.ext hread rfl, hshut⟩
  keeps := stayWithin_keeps
  shut hr := shut_ok hr _
  store := by
    intro name content r hr
    refine ⟨_, store_eq hr name content, ?_, ?_, fun _ => rfl, hr.withResource name content⟩
    · simp [holds, withResource, record, place, Pairs.get?_set]
    · intro other hother
      simp [holds, withResource, record, place, Pairs.get?_set, Ne.symm hother]
  release := by
    intro side r hr
    have hkept := withoutPlace_keeps r side
    exact ⟨_, release_eq hr side, hkept.1, fun other _ => hkept.2 other⟩

/-- The places with what is in them, and nothing else left of a rehearsal. -/
def renewed (r : Rehearsal) : Rehearsal where
  remote := { resources := r.remote.resources }
  copy := { resources := r.copy.resources }

theorem isUnscripted_renewed (r : Rehearsal) : r.renewed.IsUnscripted where
  failOpen side := by cases side <;> rfl
  failClose side := by cases side <;> rfl
  failRead side := by cases side <;> rfl
  failStore := rfl
  failRelease side := by cases side <;> rfl
  streams _ hs := nomatch hs

theorem holds_renewed (r : Rehearsal) (side : Side) (name : Text) :
    r.renewed.holds side name = r.holds side name := by
  cases side <;> rfl

/-- The manifest of an index that offers its newest chunk. -/
def chained : Bytes :=
  (Text.toLatin1? ("nexus.index.id=central\nnexus.index.timestamp=20240115103000.123 +0000\n" ++
    "nexus.index.chain-id=c1\nnexus.index.last-incremental=8\nnexus.index.incremental-0=8")).getD []

/-- The index is published, and there is no copy. -/
def publishing : Rehearsal :=
  renewed { remote := { resources := [(Manifest.resourceName, chained)] } }

end Rehearsal

theorem Rehearsal.publishing_holds :
    publishing.holds .remote Manifest.resourceName = some chained := by
  simp [holds, publishing, renewed, place, Pairs.get?]

open Rehearsal in
/-- A first session with nothing to start from, and the next one, which has nothing to fetch. -/
theorem establish_after_finish_publishing :
    ∃ m s w₁ s₂ w₃ t w₅, Manifest.ofPayload (.bytes chained) = .ok m ∧
      Session.establish depots true none publishing = (.ok s, w₁) ∧
      Session.finish depots .earliest (s, w₁) = (.ok (), s₂, w₃) ∧
      Session.establish depots true none w₃.renewed = (.ok t, w₅) ∧
      t.published = m ∧ t.copy = some m ∧ t.plan.isIncremental = true ∧ t.plan.chunkNames = [] := by
  have hread : (Manifest.ofPayload (.bytes chained)).toOption.any (fun m =>
      m.indexId.isSome && m.chainId.isSome && m.lastIncremental == some 8 && m.markers == [8]) =
      true := by
    decide +kernel
  have hopened : (Session.establish depots true none publishing).1.toOption.isSome = true := by
    decide +kernel
  rcases hm : Manifest.ofPayload (.bytes chained) with fault | m
  · simp [hm, Except.toOption] at hread
  rcases hs : Session.establish depots true none publishing with ⟨fault | s, w₁⟩
  · simp [hs, Except.toOption] at hopened
  simp only [hm, Except.toOption, Option.any_some, Bool.and_eq_true, beq_iff_eq] at hread
  obtain ⟨⟨⟨hid, hchain⟩, hlast⟩, hmarkers⟩ := hread
  obtain ⟨s₂, w₃, hfinish, hnext⟩ := Session.establish_after_finish reliable reliable
    (fun _ => isUnscripted_renewed _) publishing_holds hm hid
    (show ∀ c ∈ (none : Option Text).getD [], c.val < 256 by simp) hs .refl .earliest
  obtain ⟨t, w₅, hestablish, -, hpublished, hcopy, -, -, hplan⟩ :=
    hnext none w₃.renewed (holds_renewed w₃) fun _ => isUnscripted_renewed w₃
  obtain ⟨hincremental, hnone⟩ :=
    (hplan 8 (by rw [← Option.isSome_iff_ne_none]; exact hchain) hlast).1 (by simp [hmarkers])
  exact ⟨m, s, w₁, s₂, w₃, t, w₅, rfl, rfl, hfinish, hestablish, hpublished, hcopy,
    hincremental, hnone⟩

end IndexChain
