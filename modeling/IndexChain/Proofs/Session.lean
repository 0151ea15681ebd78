import IndexChain.Proofs.Delivery
import IndexChain.Session

/-!
# Sessions — what opening, passing and ending come to

The steps of a session are taken apart here, each once.

* **Opening.** `establish_eq_ok_iff` lists all that a session which could be opened has read and
  decided; nothing else happened to the places.
* **One pass.** A fresh session makes a single pass over its plan, so all its later states are that
  session with a delivery (`passing`). `consumeAll_rule` is the rule of the loop over the chunks:
  its invariant speaks of the delivery and of the places alone.
* **Ending.** `finish_eq` and `close_eq` say what the end of a session does to the places:
  the live chunk is closed first, and **only if that goes well is anything recorded**.
-/

namespace IndexChain

namespace Session

open Run

variable {σ : Type} {D : Depots σ}

/-! ## 1. Opening -/

theorem loadManifest_eq_ok_iff {stream : StreamId} {w w' : σ} {m : Manifest} :
    loadManifest D stream w = (.ok m, w') ↔
      ∃ content, D.readAndShut stream w = (.ok content, w') ∧
        Manifest.ofPayload (.bytes content) = .ok m := by
  unfold loadManifest
  rw [bind_eq_ok_iff]
  simp only [ofExcept_apply, Prod.mk.injEq]
  constructor
  · rintro ⟨content, u, hread, hm, rfl⟩
    exact ⟨content, hread, hm⟩
  · rintro ⟨content, hread, hm⟩
    exact ⟨content, w', hread, hm, rfl⟩

theorem loadManifest_of_read {stream : StreamId} {w w' : σ} {content : Bytes}
    (h : D.readAndShut stream w = (.ok content, w')) :
    loadManifest D stream w = (Manifest.ofPayload (.bytes content), w') := by
  unfold loadManifest
  rw [bind_of_ok h, ofExcept_apply]

/-- The copy's manifest could be looked for: there is none, or it was read. -/
inductive CopyLoaded (D : Depots σ) (w : σ) : Option Manifest → σ → Prop
  | missing {fault : Fault} {w₁ : σ} :
      D.fetch .copy Manifest.resourceName w = (.error fault, w₁) → fault.isNotFound = true →
      CopyLoaded D w none
        (D.note (.ofPart .info "reader" "No local index metadata, reading full index" []) w₁)
  | present {stream : StreamId} {m : Manifest} {w₁ w' : σ} :
      D.fetch .copy Manifest.resourceName w = (.ok stream, w₁) →
      loadManifest D stream w₁ = (.ok m, w') → CopyLoaded D w (some m) w'

theorem loadCopy_eq_ok_iff {w w' : σ} {copy : Option Manifest} :
    loadCopy D w = (.ok copy, w') ↔ CopyLoaded D w copy w' := by
  unfold loadCopy
  constructor
  · intro h
    rcases hfetch : D.fetch .copy Manifest.resourceName w with ⟨fault | stream, w₁⟩
    · simp only [hfetch] at h
      by_cases hmissing : fault.isNotFound = true
      · simp only [hmissing, if_true, Prod.mk.injEq, Except.ok.injEq] at h
        obtain ⟨rfl, rfl⟩ := h
        exact .missing hfetch hmissing
      · simp [hmissing] at h
    · simp only [hfetch, bind_eq_ok_iff, pure_apply, Prod.mk.injEq, Except.ok.injEq] at h
      obtain ⟨m, _, hload, rfl, rfl⟩ := h
      exact .present hfetch hload
  · intro h
    cases h with
    | missing hfetch hmissing => simp [hfetch, hmissing]
    | present hfetch hload =>
      simp only [hfetch]
      rw [bind_of_ok hload]
      rfl

/-- What is logged about a plan. -/
def notePlan (D : Depots σ) (plan : Plan) (w : σ) : σ :=
  D.note (.ofPart .debug "planner" "Planned index sync" [
    ("mode", .text plan.modeName),
    ("reason", .ofText? (plan.reason?.map fun r => Text.ofString r.name)),
    ("chunks", .int plan.chunkNames.length)]) w

/-- What is logged about an opened session. -/
def noteEstablished (D : Depots σ) (published : Manifest) (plan : Plan) (w : σ) : σ :=
  D.note (.ofPart .info "reader" "Index sync planned" [
    ("index_id", .ofText? published.indexId),
    ("incremental", .bool plan.isIncremental),
    ("chunks", .int plan.chunkNames.length)]) w

/-- A session at its beginning. -/
structure IsFresh (s : Session) : Prop where
  passes : s.passes = []
  live : s.live = none
  closed : s.closed = false

/-- All that an opened session has read and decided. -/
structure Established (D : Depots σ) (hasCopy : Bool) (comment : Option Text) (w : σ) (s : Session)
    (w' : σ) : Prop where
  isFresh : s.IsFresh
  hasCopy_eq : s.hasCopy = hasCopy
  comment_eq : s.comment = comment
  publishedAt_eq : s.published.publishedAt = some s.publishedAt
  plan_eq : Plan.decide s.copy s.published = .ok s.plan
  reads : ∃ stream w₁ w₂ w₃,
    D.fetch .remote Manifest.resourceName w = (.ok stream, w₁) ∧
    loadManifest D stream w₁ = (.ok s.published, w₂) ∧
    (if hasCopy then loadCopy D else pure none) w₂ = (.ok s.copy, w₃) ∧
    w' = noteEstablished D s.published s.plan (notePlan D s.plan w₃)

/-- What is left to do once both places were read. -/
def settle (D : Depots σ) (hasCopy : Bool) (comment : Option Text) (published : Manifest)
    (copy : Option Manifest) : Run σ Session := fun w =>
  match Plan.decide copy published, published.publishedAt with
  | .error fault, _ => (.error fault, w)
  | .ok plan, none =>
    (.error (.corruptMetadata (.badTimestamp published.rawTimestamp)), notePlan D plan w)
  | .ok plan, some publishedAt =>
    (.ok ⟨published, publishedAt, copy, hasCopy, plan, comment, [], none, false⟩,
      noteEstablished D published plan (notePlan D plan w))

theorem establish_eq (hasCopy : Bool) (comment : Option Text) (w : σ) :
    establish D hasCopy comment w =
      (D.fetch .remote Manifest.resourceName >>= fun stream => loadManifest D stream >>=
        fun published => (if hasCopy then loadCopy D else pure none) >>=
          settle D hasCopy comment published) w := by
  unfold establish
  refine congrFun (congrArg _ (funext fun stream => congrArg _ (funext fun published => ?_))) w
  -- the same steps follow, whether a copy was looked for or not
  cases hasCopy
  case' false => refine congrArg (Bind.bind (pure none)) (funext fun copy => funext fun w => ?_)
  case' true => refine congrArg (Bind.bind (loadCopy D)) (funext fun copy => funext fun w => ?_)
  all_goals
    show (Run.ofExcept (Plan.decide copy published) >>= _) w = settle D _ comment published copy w
    unfold settle
    rcases Plan.decide copy published with fault | plan
    · rfl
    · rcases published.publishedAt with _ | publishedAt <;> rfl

/-- **A session is opened exactly if both places could be read and a plan could be made.** -/
theorem establish_eq_ok_iff {hasCopy : Bool} {comment : Option Text} {w w' : σ} {s : Session} :
    establish D hasCopy comment w = (.ok s, w') ↔ Established D hasCopy comment w s w' := by
  rw [establish_eq]
  constructor
  · intro h
    obtain ⟨stream, w₁, hfetch, h⟩ := bind_eq_ok_iff.mp h
    obtain ⟨published, w₂, hload, h⟩ := bind_eq_ok_iff.mp h
    obtain ⟨copy, w₃, hcopy, h⟩ := bind_eq_ok_iff.mp h
    unfold settle at h
    rcases hplan : Plan.decide copy published with fault | plan
    · simp [hplan] at h
    · cases hat : published.publishedAt with
      | none => simp [hplan, hat] at h
      | some publishedAt =>
        simp only [hplan, hat, Prod.mk.injEq, Except.ok.injEq] at h
        obtain ⟨rfl, rfl⟩ := h
        exact ⟨⟨rfl, rfl, rfl⟩, rfl, rfl, hat, hplan, stream, w₁, w₂, w₃, hfetch, hload, hcopy, rfl⟩
  · rintro ⟨⟨hpasses, hlive, hclosed⟩, hhas, hcomment, hat, hplan, stream, w₁, w₂, w₃,
      hfetch, hload, hcopy, rfl⟩
    rw [bind_of_ok hfetch, bind_of_ok hload, bind_of_ok hcopy]
    obtain ⟨published, publishedAt, copy, hasCopy', plan, comment', passes, live, closed⟩ := s
    subst hpasses hlive hclosed hhas hcomment
    simp only at hat hplan
    simp only [settle, hplan, hat]

/-! ## 2. One pass -/

/-- A session whose only pass is live. -/
def passing (s : Session) (d : Delivery) : Session := { s with passes := [d], live := some 0 }

theorem iterate_fresh {s : Session} (hs : s.IsFresh) (w : σ) :
    iterate D (s, w) = (.ok 0, s.passing (.ofNames s.plan.chunkNames), w) := by
  obtain ⟨published, publishedAt, copy, hasCopy, plan, comment, passes, live, closed⟩ := s
  obtain ⟨rfl, rfl, rfl⟩ := hs
  rfl

theorem next_passing_eq_iff {s : Session} {d : Delivery} {w : σ} {o : Except Fault Chunk}
    {t : Session × σ} :
    next D 0 (s.passing d, w) = (o, t) ↔
      ∃ d' w', Delivery.next D (d, w) = (o, d', w') ∧ t = (s.passing d', w') := by
  have heq : next D 0 (s.passing d, w) =
      ((Delivery.next D (d, w)).1, s.passing (Delivery.next D (d, w)).2.1,
        (Delivery.next D (d, w)).2.2) := rfl
  rw [heq]
  rcases Delivery.next D (d, w) with ⟨o', d', w'⟩
  simp only [Prod.mk.injEq]
  constructor
  · rintro ⟨rfl, rfl⟩
    exact ⟨d', w', ⟨rfl, rfl, rfl⟩, rfl⟩
  · rintro ⟨d'', w'', ⟨rfl, rfl, rfl⟩, rfl⟩
    exact ⟨rfl, rfl⟩

theorem onDepots_eq_iff {α : Type} {step : Run σ α} {s : Session} {w : σ} {o : Except Fault α}
    {t : Session × σ} :
    onDepots step (s, w) = (o, t) ↔ ∃ w', step w = (o, w') ∧ t = (s, w') := by
  have heq : onDepots step (s, w) = ((step w).1, s, (step w).2) := rfl
  rw [heq]
  rcases step w with ⟨o', w'⟩
  simp only [Prod.mk.injEq]
  constructor
  · rintro ⟨rfl, rfl⟩
    exact ⟨w', ⟨rfl, rfl⟩, rfl⟩
  · rintro ⟨w'', ⟨rfl, rfl⟩, rfl⟩
    exact ⟨rfl, rfl⟩

/-- The chunk that is handed out is the first one pending. -/
theorem pending_of_next {d d' : Delivery} {w w' : σ} {chunk : Chunk}
    (h : Delivery.next D (d, w) = (.ok chunk, d', w')) : d.pending = chunk.name :: d'.pending := by
  have hnext := Delivery.next_next D d w
  rw [h] at hnext
  cases hnext with
  | handed _ hpending => exact hpending

/-- A chunk that was handed out is pending no more. -/
theorem length_pending_of_next {d d' : Delivery} {w w' : σ} {chunk : Chunk}
    (h : Delivery.next D (d, w) = (.ok chunk, d', w')) : d'.pending.length < d.pending.length := by
  rw [pending_of_next h]
  exact Nat.lt_succ_self _

section Rule

variable {α : Type} (body : Nat → Chunk → Run σ α) {I : Delivery → σ → Prop}
  {Q : Except Fault (List α) → Delivery → σ → Prop}

/-- **The rule of a pass over the plan.** `I` holds of the delivery and the places before each chunk
    is asked for. What holds at the end is `Q`: after the last chunk, or when asking for one or the
    body failed. -/
theorem consumeAll_rule {s : Session} (hs : s.IsFresh)
    (hend : ∀ d w d' w' out, I d w → Delivery.next D (d, w) = (.error .exhausted, d', w') →
      Q (.ok out) d' w')
    (hfail : ∀ d w d' w' fault, I d w → Delivery.next D (d, w) = (.error fault, d', w') →
      fault ≠ .exhausted → Q (.error fault) d' w')
    (hbody : ∀ d w d' w' w'' k chunk fault, I d w → Delivery.next D (d, w) = (.ok chunk, d', w') →
      body k chunk w' = (.error fault, w'') → Q (.error fault) d' w'')
    (hstep : ∀ d w d' w' w'' k chunk a, I d w → Delivery.next D (d, w) = (.ok chunk, d', w') →
      body k chunk w' = (.ok a, w'') → I d' w'')
    {w : σ} (hinit : I (.ofNames s.plan.chunkNames) w) :
    ∃ o d w', consumeAll D (fun k chunk => onDepots (body k chunk)) (s, w) = (o, s.passing d, w') ∧
      Q o d w' := by
  -- the chunks that are pending are those that may still come
  have hrule := @forEach_rule _ _ _ (next D 0) (fun k chunk => onDepots (body k chunk))
    (fun n x => ∃ d w, x = (s.passing d, w) ∧ d.pending.length = n ∧ I d w)
    (fun o x => ∃ d w, x = (s.passing d, w) ∧ Q o d w)
    ?hend ?hfail ?hbody ?hstep (s.plan.chunkNames.length + 1) s.plan.chunkNames.length 0 []
    (s.passing (.ofNames s.plan.chunkNames), w) ⟨_, w, rfl, rfl, hinit⟩ (Nat.lt_succ_self _)
  case hend =>
    rintro n _ t out ⟨d, w, rfl, -, hI⟩ hnext
    obtain ⟨d', w', h, rfl⟩ := next_passing_eq_iff.mp hnext
    exact ⟨d', w', rfl, hend d w d' w' out hI h⟩
  case hfail =>
    rintro n _ t fault ⟨d, w, rfl, -, hI⟩ hnext hne
    obtain ⟨d', w', h, rfl⟩ := next_passing_eq_iff.mp hnext
    exact ⟨d', w', rfl, hfail d w d' w' fault hI h hne⟩
  case hbody =>
    rintro n _ t u k chunk fault ⟨d, w, rfl, -, hI⟩ hnext hcons
    obtain ⟨d', w', h, rfl⟩ := next_passing_eq_iff.mp hnext
    obtain ⟨w'', hb, rfl⟩ := onDepots_eq_iff.mp hcons
    exact ⟨d', w'', rfl, hbody d w d' w' w'' k chunk fault hI h hb⟩
  case hstep =>
    rintro n _ t u k chunk a ⟨d, w, rfl, rfl, hI⟩ hnext hcons
    obtain ⟨d', w', h, rfl⟩ := next_passing_eq_iff.mp hnext
    obtain ⟨w'', hb, rfl⟩ := onDepots_eq_iff.mp hcons
    exact ⟨_, length_pending_of_next h, d', w'', rfl, rfl, hstep d w d' w' w'' k chunk a hI h hb⟩
  obtain ⟨d, w', heq, hQ⟩ := hrule
  refine ⟨_, d, w', ?_, hQ⟩
  simp only [consumeAll, iterate_fresh hs]
  exact Prod.ext rfl heq

end Rule

/-! ## 3. Ending -/

/-- A session that is over. -/
def ended (s : Session) : Session := { s with closed := true }

theorem finish_of_open {s : Session} (hs : s.closed = false) (now : Moment) (w : σ) :
    finish D now (s, w) =
      match closeLive D (s.ended, w) with
      | (.ok (), s, w) => onDepots (Handover.finalize D s.hasCopy s.published s.comment now) (s, w)
      | (.error fault, s, w) =>
        if fault.isOrdinary then onDepots (release D s.hasCopy >>= fun _ => Run.fail fault) (s, w)
        else (.error fault, s, w) := by
  unfold finish
  simp only [hs, Bool.false_eq_true, if_false]
  rcases hlive : closeLive D (s.ended, w) with ⟨fault | ⟨⟩, s', w'⟩
  · have hlive' : closeLive D ({ s with closed := true }, w) = (.error fault, s', w') := hlive
    simp only [hlive']
    by_cases hordinary : fault.isOrdinary = true
    · simp only [hordinary, if_true, onDepots]
      rcases hr : release D s'.hasCopy w' with ⟨fault' | ⟨⟩, w₂⟩
      · rw [bind_of_error hr]
      · rw [bind_of_ok hr]
        rfl
    · simp only [hordinary, Bool.false_eq_true, if_false]
  · have hlive' : closeLive D ({ s with closed := true }, w) = (.ok (), s', w') := hlive
    simp only [hlive']

theorem close_of_open {s : Session} (hs : s.closed = false) (w : σ) :
    close D (s, w) = (closeLive D).ensure (onDepots (release D s.hasCopy)) (s.ended, w) := by
  unfold close
  simp only [hs, Bool.false_eq_true, if_false]
  rfl

/-- What the end of a session does to the places, with the delivery that is live: if its chunk
    cannot be closed, nothing is recorded. -/
def recordPass (D : Depots σ) (now : Moment) (s : Session) (d : Delivery) : Run σ Unit := fun w =>
  match d.shutCurrent D w with
  | (.ok (), w) => Handover.finalize D s.hasCopy s.published s.comment now w
  | (.error fault, w) =>
    if fault.isOrdinary then (release D s.hasCopy >>= fun _ => Run.fail fault) w
    else (.error fault, w)

/-- The delivery that is closed with the session; without one there is no chunk to close. -/
def liveDelivery (s : Session) : Delivery := (s.live.bind fun i => s.passes[i]?).getD (.ofNames [])

theorem closeLive_eq (s : Session) (w : σ) :
    ∃ s', closeLive D (s, w) =
        ((s.liveDelivery.shutCurrent D w).1, s', (s.liveDelivery.shutCurrent D w).2) ∧
      s'.hasCopy = s.hasCopy ∧ s'.published = s.published ∧ s'.comment = s.comment ∧
      s'.closed = s.closed := by
  unfold closeLive liveDelivery
  cases hlive : s.live with
  | none =>
    simp only [hlive]
    exact ⟨s, rfl, rfl, rfl, rfl, rfl⟩
  | some i =>
    have hclose := Delivery.close_eq D (s.passes[i]?.getD (.ofNames [])) w
    simp only [hlive, Option.bind_some, onPass]
    rcases hc : Delivery.close D (s.passes[i]?.getD (.ofNames []), w) with ⟨fault | ⟨⟩, d', w'⟩ <;>
      · rw [hc] at hclose
        simp only [Prod.mk.injEq] at hclose
        rw [← hclose.1, ← hclose.2.2]
        exact ⟨_, rfl, rfl, rfl, rfl, rfl⟩

theorem closed_closeLive (x : Session × σ) : (closeLive D x).2.1.closed = x.1.closed := by
  obtain ⟨s', hclose, -, -, -, hclosed⟩ := closeLive_eq (D := D) x.1 x.2
  rw [hclose]
  exact hclosed

/-- What finishing a session does that is not over. -/
theorem finish_eq {s : Session} (hs : s.closed = false) (now : Moment) (w : σ) :
    finish D now (s, w) = ((recordPass D now s s.liveDelivery w).1, (closeLive D (s.ended, w)).2.1,
      (recordPass D now s s.liveDelivery w).2) := by
  obtain ⟨s', hclose, hcopy, hpublished, hcomment, -⟩ := closeLive_eq (D := D) s.ended w
  rw [finish_of_open hs, hclose, show s.ended.liveDelivery = s.liveDelivery from rfl]
  unfold recordPass
  rcases s.liveDelivery.shutCurrent D w with ⟨fault | ⟨⟩, w₁⟩
  · simp only [hcopy]
    split
    · rfl
    · rfl
  · simp only [hcopy, hpublished, hcomment]
    rfl

/-- What closing a session does that is not over. -/
theorem close_eq {s : Session} (hs : s.closed = false) (w : σ) :
    close D (s, w) = (((s.liveDelivery.shutCurrent D).ensure (release D s.hasCopy) w).1,
      (closeLive D (s.ended, w)).2.1,
      ((s.liveDelivery.shutCurrent D).ensure (release D s.hasCopy) w).2) := by
  obtain ⟨s', hclose, hcopy, -⟩ := closeLive_eq (D := D) s.ended w
  have hrelease : ∀ w₁, onDepots (release D s.hasCopy) (s', w₁) =
      ((release D s.hasCopy w₁).1, s', (release D s.hasCopy w₁).2) := fun _ => rfl
  rw [close_of_open hs, Run.ensure, hclose, show s.ended.liveDelivery = s.liveDelivery from rfl]
  unfold Run.ensure
  simp only [hrelease]
  rcases s.liveDelivery.shutCurrent D w with ⟨o, w₁⟩
  rcases release D s.hasCopy w₁ with ⟨fault | ⟨⟩, w₂⟩ <;> rfl

theorem finish_passing {s : Session} (hs : s.IsFresh) (d : Delivery) (now : Moment) (w : σ) :
    ∃ s', finish D now (s.passing d, w) =
      ((recordPass D now s d w).1, s', (recordPass D now s d w).2) :=
  ⟨_, finish_eq (D := D) (show (s.passing d).closed = false from hs.closed) now w⟩

theorem recordPass_of_finish_passing {s t : Session} (hs : s.IsFresh) {d : Delivery} {now : Moment}
    {w w' : σ} {o : Except Fault Unit} (h : finish D now (s.passing d, w) = (o, t, w')) :
    recordPass D now s d w = (o, w') := by
  obtain ⟨s', hfinish⟩ := finish_passing (D := D) hs d now w
  rw [h] at hfinish
  exact Prod.ext (Prod.mk.inj hfinish).1.symm (Prod.mk.inj (Prod.mk.inj hfinish).2).2.symm

theorem recordPass_eq_ok {s : Session} {d : Delivery} {now : Moment} {w w' : σ}
    (h : recordPass D now s d w = (.ok (), w')) :
    ∃ u, d.shutCurrent D w = (.ok (), u) ∧
      Handover.finalize D s.hasCopy s.published s.comment now u = (.ok (), w') := by
  unfold recordPass at h
  rcases hshut : d.shutCurrent D w with ⟨fault | ⟨⟩, u⟩
  · simp only [hshut] at h
    split at h
    · obtain ⟨_, _, _, hfail⟩ := bind_eq_ok_iff.mp h
      cases hfail
    · cases h
  · simp only [hshut] at h
    exact ⟨u, rfl, h⟩

/-- A session that could be finished has closed its last chunk and recorded the update. -/
theorem finalize_of_finish_passing {s t : Session} (hs : s.IsFresh) {d : Delivery} {now : Moment}
    {w w' : σ} (h : finish D now (s.passing d, w) = (.ok (), t, w')) :
    ∃ u, d.shutCurrent D w = (.ok (), u) ∧
      Handover.finalize D s.hasCopy s.published s.comment now u = (.ok (), w') :=
  recordPass_eq_ok (recordPass_of_finish_passing hs h)

theorem close_passing {s : Session} (hs : s.IsFresh) (d : Delivery) (w : σ) :
    ∃ s', close D (s.passing d, w) =
      (((d.shutCurrent D).ensure (release D s.hasCopy) w).1, s',
        ((d.shutCurrent D).ensure (release D s.hasCopy) w).2) :=
  ⟨_, close_eq (D := D) (show (s.passing d).closed = false from hs.closed) w⟩

theorem during_snd_of_ok {α : Type} {now : Moment} {body : Run (Session × σ) α} {a : α}
    {x y : Session × σ} (h : body x = (.ok a, y)) :
    (during D now body x).2 = (finish D now y).2 := by
  unfold during
  rcases hf : finish D now y with ⟨fault | ⟨⟩, z⟩ <;> simp [h, hf]

theorem during_snd_of_error {α : Type} {now : Moment} {body : Run (Session × σ) α} {fault : Fault}
    {x y : Session × σ} (h : body x = (.error fault, y)) :
    (during D now body x).2 = (close D y).2 := by
  unfold during
  rcases hc : close D y with ⟨fault' | ⟨⟩, z⟩ <;> simp [h, hc]

/-- A body that fails has its fault, if the session can be closed. -/
theorem during_of_error {α : Type} {now : Moment} {body : Run (Session × σ) α} {fault : Fault}
    {x y z : Session × σ} (h : body x = (.error fault, y)) (hclose : close D y = (.ok (), z)) :
    during D now body x = (.error fault, z) := by
  unfold during
  simp only [h, hclose]

/-- After a body that succeeds it comes to finishing the session. -/
theorem during_of_ok {α : Type} {now : Moment} {body : Run (Session × σ) α} {a : α}
    {o : Except Fault Unit} {x y z : Session × σ} (h : body x = (.ok a, y))
    (hfinish : finish D now y = (o, z)) :
    during D now body x = (o.map fun _ => a, z) := by
  unfold during
  simp only [h, hfinish]
  cases o <;> rfl

theorem during_eq_ok_iff {α : Type} {now : Moment} {body : Run (Session × σ) α} {a : α}
    {x y : Session × σ} :
    during D now body x = (.ok a, y) ↔
      ∃ u, body x = (.ok a, u) ∧ finish D now u = (.ok (), y) := by
  unfold during
  rcases hb : body x with ⟨fault | a', u⟩
  · rcases hc : close D u with ⟨fault' | ⟨⟩, v⟩ <;> simp [hc]
  · rcases hf : finish D now u with ⟨fault | ⟨⟩, v⟩
    · simp only [hf, Prod.mk.injEq]
      constructor
      · rintro ⟨h, -⟩
        cases h
      · rintro ⟨u', ⟨-, rfl⟩, h⟩
        rw [hf] at h
        cases h
    · simp only [hf, Prod.mk.injEq, Except.ok.injEq]
      constructor
      · rintro ⟨rfl, rfl⟩
        exact ⟨u, ⟨rfl, rfl⟩, hf⟩
      · rintro ⟨u', ⟨rfl, rfl⟩, h⟩
        rw [hf] at h
        cases h
        exact ⟨rfl, rfl⟩

/-! ## 4. What opening and ending leave alone -/

section StayWithin

variable {R : σ → σ → Prop}

theorem readAndShut_within (hD : D.StayWithin R) (stream : StreamId) :
    Run.Within R (D.readAndShut stream) :=
  .ensure hD.trans (hD.read stream none) (hD.shut stream)

theorem loadManifest_within (hD : D.StayWithin R) (stream : StreamId) :
    Run.Within R (loadManifest D stream) :=
  .bind hD.trans (readAndShut_within hD stream) fun _ => .ofExcept hD.refl _

theorem loadCopy_within (hD : D.StayWithin R) : Run.Within R (loadCopy D) := by
  intro w
  unfold loadCopy
  rcases h : D.fetch .copy Manifest.resourceName w with ⟨fault | stream, w₁⟩
  · have hfetch := (hD.fetch _ _).of_eq h
    simp only
    split
    · exact hD.trans _ _ _ hfetch (hD.note _ _ _ (by decide))
    · exact hfetch
  · have hload : Run.Within R (loadManifest D stream >>= fun m => pure (some m)) :=
      .bind hD.trans (loadManifest_within hD stream) fun _ => .pure hD.refl _
    exact hD.trans _ _ _ ((hD.fetch _ _).of_eq h) (hload w₁)

theorem settle_within (hD : D.StayWithin R) (hasCopy : Bool) (comment : Option Text)
    (published : Manifest) (copy : Option Manifest) :
    Run.Within R (settle D hasCopy comment published copy) := by
  intro w
  unfold settle
  split
  · exact hD.refl w
  · exact hD.note _ _ w (by decide)
  · exact hD.trans _ _ _ (hD.note _ _ w (by decide)) (hD.note _ _ _ (by decide))

theorem establish_within (hD : D.StayWithin R) (hasCopy : Bool) (comment : Option Text) :
    Run.Within R (establish D hasCopy comment) := by
  intro w
  rw [establish_eq]
  have hcopy : Run.Within R (if hasCopy then loadCopy D else pure none) := by
    cases hasCopy
    · exact .pure hD.refl _
    · exact loadCopy_within hD
  exact Run.Within.bind hD.trans (hD.fetch .remote Manifest.resourceName)
    (fun stream => .bind hD.trans (loadManifest_within hD stream)
      fun published => .bind hD.trans hcopy fun copy => settle_within hD _ _ published copy) w

end StayWithin

section EndsWithin

variable {R : σ → σ → Prop}

theorem release_within (hrefl : ∀ w, R w w) (htrans : ∀ u v w, R u v → R v w → R u w)
    (hrelease : ∀ side, Run.Within R (D.release side)) (hasCopy : Bool) :
    Run.Within R (release D hasCopy) := by
  refine .ensure htrans (hrelease .remote) ?_
  cases hasCopy
  · exact hrefl
  · exact hrelease .copy

theorem finalize_within (hD : D.EndsWithin R) (hasCopy : Bool) (published : Manifest)
    (comment : Option Text) (now : Moment) :
    Run.Within R (Handover.finalize D hasCopy published comment now) := by
  have hrecord : Run.Within R (Handover.record D published comment now) := by
    unfold Handover.record
    cases published.entries.toBytes? comment now with
    | none => exact hD.refl
    | some content =>
      refine .bind hD.trans (hD.store Manifest.resourceName content) fun _ w => ?_
      exact hD.note _ _ w (by decide)
  unfold Handover.finalize
  split
  · exact .ensure hD.trans (.bind hD.trans (hD.release .remote) fun _ => hrecord) (hD.release .copy)
  · exact hD.release .remote

/-- After the live chunk was closed, or could not be, the end of a session stays within what storing
    and releasing keep. -/
theorem recordPass_within (hD : D.EndsWithin R) (now : Moment) (s : Session)
    (d : Delivery) (w : σ) : R (d.shutCurrent D w).2 (recordPass D now s d w).2 := by
  unfold recordPass
  rcases d.shutCurrent D w with ⟨fault | ⟨⟩, u⟩
  · simp only
    split
    · have hfail : Run.Within R (Run.fail fault : Run σ Unit) := hD.refl
      exact Run.Within.bind hD.trans (release_within hD.refl hD.trans hD.release s.hasCopy)
        (fun _ => hfail) u
    · exact hD.refl u
  · exact finalize_within hD _ _ _ _ u

end EndsWithin

end Session

end IndexChain
