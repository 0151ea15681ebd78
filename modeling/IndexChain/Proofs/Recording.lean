import IndexChain.Proofs.History
import IndexChain.Proofs.Succession
import IndexChain.Usage

/-!
# Recording — at most once, and only by the first end

Callers may do what they like with a session, as often and in whatever order: make passes, ask any
of them for chunks, read and close chunks, finish and close the session, and go on after that. A
`Course` is all that was done, with each `Ending` that was asked for and the state in which it was.

* Before the first ending nothing is stored, since no other step does (`StayWithin`).
* After it the session is over, and a session that is over stays as it is (`goesOn_of_closed`):
  every further ending does nothing at all.

So **all that is ever stored is what the first ending stores, if it finishes the session**, and that
is the manifest, after the live chunk was closed and the remote place released. The places may fail
at any time.
-/

namespace IndexChain

variable {σ : Type}

theorem Depots.stayWithin_true (D : Depots σ) : D.StayWithin fun _ _ => True := by
  constructor <;> intros <;> first | trivial | exact fun _ => trivial

namespace Session

/-! ## 1. Endings -/

/-- A way to end a session. -/
inductive Ending
  | finish (now : Moment)
  | close

/-- Ends a session. -/
def Ending.run (D : Depots σ) : Ending → Run (Session × σ) Unit
  | finish now => Session.finish D now
  | close => Session.close D

section Ending

variable {D : Depots σ}

/-- A session that is over is left alone. -/
theorem Ending.run_of_closed (e : Ending) {x : Session × σ} (h : x.1.closed = true) :
    e.run D x = (.ok (), x) := by
  obtain ⟨s, w⟩ := x
  cases e with
  | finish now => exact if_pos h
  | close => exact if_pos h

/-- What an ending does to the places, if the session is not over. -/
def Ending.onPlaces (D : Depots σ) (s : Session) : Ending → Run σ Unit
  | finish now => recordPass D now s s.liveDelivery
  | close => (s.liveDelivery.shutCurrent D).ensure (release D s.hasCopy)

/-- However a session is ended, its live pass is closed. -/
theorem Ending.run_eq (e : Ending) {x : Session × σ} (h : x.1.closed = false) :
    e.run D x = ((e.onPlaces D x.1 x.2).1, (closeLive D (x.1.ended, x.2)).2.1,
      (e.onPlaces D x.1 x.2).2) := by
  obtain ⟨s, w⟩ := x
  cases e with
  | finish now => exact finish_eq h now w
  | close => exact close_eq h w

theorem Ending.closed_run (e : Ending) (x : Session × σ) : (e.run D x).2.1.closed = true := by
  by_cases h : x.1.closed = true
  · rw [e.run_of_closed h]
    exact h
  · rw [e.run_eq (Bool.eq_false_iff.mpr h)]
    exact closed_closeLive _

/-- After the live chunk was closed, an ending stays within what storing and releasing keep. If the
    chunk cannot be closed, the ending fails. -/
theorem Ending.onPlaces_within {R : σ → σ → Prop} (hD : D.EndsWithin R) (e : Ending)
    (s : Session) (w : σ) :
    R (s.liveDelivery.shutCurrent D w).2 (e.onPlaces D s w).2 ∧
    ((e.onPlaces D s w).1 = .ok () → (s.liveDelivery.shutCurrent D w).1 = .ok ()) := by
  cases e with
  | finish now =>
    refine ⟨recordPass_within hD now s s.liveDelivery w, fun hok => ?_⟩
    obtain ⟨_, hshut, -⟩ := recordPass_eq_ok (Prod.ext hok rfl)
    rw [hshut]
  | close =>
    simp only [Ending.onPlaces, Run.ensure_snd]
    refine ⟨release_within hD.refl hD.trans hD.release s.hasCopy _, fun hok => ?_⟩
    obtain ⟨_, hshut, -⟩ := Run.ensure_eq_ok_iff.mp (Prod.ext hok rfl)
    rw [hshut]

end Ending

/-! ## 2. Courses -/

/-- All that callers do with a session, with the endings among it, each with the state in which it
    was asked for. -/
inductive Course (D : Depots σ) (x : Session × σ) :
    List (Ending × (Session × σ)) → Session × σ → Prop
  | start : Course D x [] x
  | use {ends : List (Ending × (Session × σ))} {y z : Session × σ} (h : Course D x ends y)
      (huse : Use D y z) : Course D x ends z
  | ending {ends : List (Ending × (Session × σ))} {y : Session × σ} (h : Course D x ends y)
      (e : Ending) : Course D x (ends ++ [(e, y)]) (e.run D y).2

section Course

variable {D : Depots σ} {x y z : Session × σ} {ends : List (Ending × (Session × σ))}

theorem Course.trans {ends' : List (Ending × (Session × σ))} (hxy : Course D x ends y)
    (hyz : Course D y ends' z) : Course D x (ends ++ ends') z := by
  induction hyz with
  | start => rwa [List.append_nil]
  | use _ huse ih => exact ih.use huse
  | ending _ e ih =>
    rw [← List.append_assoc]
    exact ih.ending e

/-- A course can be cut at each of its endings. -/
theorem Course.split {past rest : List (Ending × (Session × σ))} {e : Ending}
    (h : Course D x (past ++ (e, y) :: rest) z) :
    Course D x past y ∧ Course D (e.run D y).2 rest z := by
  generalize hends : past ++ (e, y) :: rest = ends at h
  induction h generalizing rest with
  | start => simp at hends
  | use _ huse ih =>
    obtain ⟨hpast, hrest⟩ := ih hends
    exact ⟨hpast, hrest.use huse⟩
  | @ending ends y' h e' ih =>
    -- the cut is at the last ending, or before it
    rcases List.eq_nil_or_concat rest with rfl | ⟨rest, last, rfl⟩
    · obtain ⟨rfl, heq⟩ := List.append_inj' hends rfl
      obtain ⟨rfl, rfl⟩ := Prod.mk.inj (List.cons.inj heq).1
      exact ⟨h, .start⟩
    · rw [List.concat_eq_append, ← List.cons_append, ← List.append_assoc] at hends
      obtain ⟨hinit, hlast⟩ := List.append_inj' hends rfl
      obtain rfl := (List.cons.inj hlast).1
      obtain ⟨hpast, hrest⟩ := ih hinit
      rw [List.concat_eq_append]
      exact ⟨hpast, hrest.ending e'⟩

theorem uses_of_course_nil (h : Course D x [] y) : Relation.ReflTransGen (Use D) x y := by
  generalize hends : ([] : List (Ending × (Session × σ))) = ends at h
  induction h with
  | start => exact .refl
  | use _ huse ih => exact (ih hends).tail huse
  | ending => simp at hends

/-- A session that is over is used by the same steps, and ended by none. -/
theorem goesOn_of_closed {R : σ → σ → Prop} (hD : D.StayWithin R) (h : Course D x ends y)
    (hx : x.1.closed = true) : GoesOn R x y := by
  induction h with
  | start => exact .refl hD x
  | use _ huse ih => exact ih.trans hD (huse.goesOn hD)
  | ending _ e ih =>
    rw [e.run_of_closed (ih.closed.trans hx)]
    exact ih

/-- After the first ending the session is over. -/
theorem closed_of_course (h : Course D x ends y) (hends : ends ≠ []) : y.1.closed = true := by
  obtain ⟨⟨e, u⟩, rest, rfl⟩ := List.exists_cons_of_ne_nil hends
  obtain ⟨-, hrest⟩ := Course.split (show Course D x ([] ++ (e, u) :: rest) y from h)
  have hclosed := e.closed_run (D := D) u
  exact (goesOn_of_closed D.stayWithin_true hrest hclosed).closed.trans hclosed

/-- Where the first ending closes the session, the places stay within what all operations but
    storing keep. -/
theorem related_of_first_close {R : σ → σ → Prop} (hD : D.StayWithin R)
    (hrelease : ∀ side, Run.Within R (D.release side)) (hx : x.1.closed = false)
    (h : Course D x ((Ending.close, y) :: ends) z) : R x.2 z.2 := by
  obtain ⟨huses, hrest⟩ := Course.split (show Course D x ([] ++ (Ending.close, y) :: ends) z from h)
  have hgoes := goesOn_of_uses hD (uses_of_course_nil huses)
  have hclosed := Ending.close.closed_run (D := D) y
  rw [Ending.close.run_eq (hgoes.closed.trans hx)] at hrest hclosed
  have hreleased := release_within hD.refl hD.trans hrelease y.1.hasCopy
  have hended :=
    Run.Within.ensure hD.trans (Delivery.shutCurrent_within hD y.1.liveDelivery) hreleased y.2
  exact hD.trans _ _ _ hgoes.related
    (hD.trans _ _ _ hended (goesOn_of_closed hD hrest hclosed).related)

end Course

/-! ### What courses cover -/

/-- From one state a course leads to the other. -/
def Leads (D : Depots σ) (x y : Session × σ) : Prop := ∃ ends, Course D x ends y

section Leads

variable {D : Depots σ}

theorem Leads.refl (x : Session × σ) : Leads D x x := ⟨[], .start⟩

theorem Leads.trans {x y z : Session × σ} (hxy : Leads D x y) (hyz : Leads D y z) :
    Leads D x z := by
  obtain ⟨ends, hxy⟩ := hxy
  obtain ⟨ends', hyz⟩ := hyz
  exact ⟨ends ++ ends', hxy.trans hyz⟩

theorem Use.leads {x y : Session × σ} (h : Use D x y) : Leads D x y := ⟨[], .use .start h⟩

theorem Ending.leads (e : Ending) : Run.Within (Leads D) (e.run D) :=
  fun x => ⟨[(e, x)], .ending .start e⟩

variable {α : Type}

/-- A loop over the chunks of a new pass. -/
theorem consumeAll_leads {consume : Nat → Chunk → Run (Session × σ) α}
    (hconsume : ∀ k chunk, Run.Within (Leads D) (consume k chunk)) :
    Run.Within (Leads D) (consumeAll D consume) := by
  intro x
  have hpass := (Use.iterate x : Use D x _).leads
  unfold consumeAll
  rcases hiterate : iterate D x with ⟨fault | i, y⟩
  · rw [hiterate] at hpass
    exact hpass
  · rw [hiterate] at hpass
    exact hpass.trans (Run.Within.forEach .refl (fun _ _ _ => .trans)
      (fun z => (Use.next i z).leads) hconsume _ _ _ y)

/-- A body of work with the session, ended by how it went. -/
theorem during_leads {now : Moment} {body : Run (Session × σ) α}
    (hbody : Run.Within (Leads D) body) : Run.Within (Leads D) (during D now body) := by
  intro x
  have hx := hbody x
  rcases hrun : body x with ⟨fault | a, y⟩
  · rw [during_snd_of_error hrun]
    rw [hrun] at hx
    exact hx.trans (Ending.close.leads y)
  · rw [during_snd_of_ok hrun]
    rw [hrun] at hx
    exact hx.trans ((Ending.finish now).leads y)

end Leads

end Session

namespace Usage

open Session

variable {D : Depots σ}

theorem onChunk_within {R : σ → σ → Prop} (hrefl : ∀ w, R w w)
    (htrans : ∀ u v w, R u v → R v w → R u w) (hread : ∀ i size, Run.Within R (D.read i size))
    (hshut : ∀ i, Run.Within R (D.shut i)) (chunk : Chunk) (step : ChunkStep) :
    Run.Within R (onChunk D chunk step) := by
  cases step with
  | read size => exact .bind htrans (hread chunk.stream size) fun _ => .pure hrefl _
  | close => exact .bind htrans (hshut chunk.stream) fun _ => .pure hrefl _
  | isClosed => exact hrefl
  | during fails =>
    cases fails with
    | false =>
      exact .ensure htrans (.bind htrans (hread chunk.stream none) fun _ => .pure hrefl _)
        (hshut chunk.stream)
    | true => exact .ensure htrans hrefl (hshut chunk.stream)

theorem onChunk_leads (chunk : Chunk) (step : ChunkStep) (s : Session) (w : σ) :
    Leads D (s, w) (s, (onChunk D chunk step w).2) :=
  onChunk_within (R := fun u v => Leads D (s, u) (s, v)) (fun _ => .refl _) (fun _ _ _ => .trans)
    (fun i size u => (Use.read i size (s, u)).leads)
    (fun i u => (Use.shut i (s, u)).leads) chunk step w

namespace SessionCaller

/-- If there is a session, a course of it leads from one state to the other. -/
def Carries (D : Depots σ) (x y : SessionCaller × σ) : Prop :=
  ∀ s, x.1.session = some s → ∃ s', y.1.session = some s' ∧ Leads D (s, x.2) (s', y.2)

theorem Carries.refl (x : SessionCaller × σ) : Carries D x x := fun s hs => ⟨s, hs, .refl _⟩

theorem Carries.trans {x y z : SessionCaller × σ} (hxy : Carries D x y) (hyz : Carries D y z) :
    Carries D x z := by
  intro s hs
  obtain ⟨s', hs', hleads⟩ := hxy s hs
  obtain ⟨s'', hs'', hleads'⟩ := hyz s' hs'
  exact ⟨s'', hs'', hleads.trans hleads'⟩

theorem onSession_carries {step : Run (Session × σ) Answer} (hstep : Run.Within (Leads D) step) :
    Run.Within (Carries D) (onSession step) := by
  rintro ⟨c, w⟩ s hs
  simp only at hs
  simp only [onSession, hs]
  exact ⟨_, rfl, hstep (s, w)⟩

theorem readWhole_leads (chunk : Chunk) : Run.Within (Leads D) (readWhole D chunk) :=
  .bind (fun _ _ _ => .trans) (fun x => (Use.read chunk.stream none x).leads) fun _ => .pure .refl _

theorem body_leads (failure : Option (Int × Fault)) : Run.Within (Leads D) (body D failure) := by
  refine .bind (fun _ _ _ => .trans) (consumeAll_leads fun k chunk => ?_) fun contents => ?_
  · cases failure with
    | none => exact readWhole_leads chunk
    | some failure =>
      simp only
      split
      · exact .refl
      · exact readWhole_leads chunk
  · cases failure with
    | none => exact .refl
    | some failure =>
      simp only
      split <;> exact .refl

theorem drain_carries : Run.Within (Carries D) (drain D) := by
  rintro ⟨c, w⟩ s hs
  simp only at hs
  have hpass := (Use.iterate (s, w) : Use D (s, w) _).leads
  simp only [drain, hs]
  rcases hiterate : iterate D (s, w) with ⟨fault | i, s', w'⟩
  · rw [hiterate] at hpass
    exact ⟨s', rfl, hpass⟩
  · rw [hiterate] at hpass
    -- the caller's chunks are kept beside the session, which is all that a course is about
    refine ⟨_, rfl, hpass.trans (Run.Within.forEach
      (R := fun x y => Leads D (x.1.2, x.2) (y.1.2, y.2)) (fun _ => .refl _) (fun _ _ _ => .trans)
      ?_ ?_ (s'.plan.chunkNames.length + 1) 0 [] ((c, s'), w'))⟩
    · rintro ⟨⟨c, s⟩, w⟩
      have hnext := (Use.next i (s, w) : Use D (s, w) _).leads
      rcases htaken : Session.next D i (s, w) with ⟨fault | chunk, s₁, w₁⟩ <;>
        · rw [htaken] at hnext
          simp only [htaken]
          exact hnext
    · exact fun k chunk x => readWhole_leads chunk (x.1.2, x.2)

/-- **What a caller of a session does is a course of it**, whichever step it is. -/
theorem step_carries (setting : Setting) {step : SessionStep} (hstep : step ≠ .establish) :
    Run.Within (Carries D) (SessionCaller.step D setting step) := by
  cases step with
  | establish => exact absurd rfl hstep
  | info => exact onSession_carries .refl
  | manifests => exact onSession_carries .refl
  | iterate =>
    rintro ⟨c, w⟩ s hs
    simp only at hs
    have hpass := (Use.iterate (s, w) : Use D (s, w) _).leads
    simp only [SessionCaller.step, hs]
    rcases hiterate : iterate D (s, w) with ⟨fault | i, s', w'⟩ <;>
      · rw [hiterate] at hpass
        exact ⟨s', rfl, hpass⟩
  | next i =>
    rintro ⟨c, w⟩ s hs
    simp only at hs
    simp only [SessionCaller.step, hs]
    cases hplace : c.passAt? i with
    | none => exact ⟨s, hs, .refl _⟩
    | some place =>
      have hnext := (Use.next place.1 (s, w) : Use D (s, w) _).leads
      simp only
      rcases htaken : Session.next D place.1 (s, w) with ⟨fault | chunk, s', w'⟩ <;>
        · rw [htaken] at hnext
          exact ⟨s', rfl, hnext⟩
  | pass i =>
    rintro ⟨c, w⟩ s hs
    simp only at hs
    simp only [SessionCaller.step, hs]
    cases c.passAt? i with
    | none => exact ⟨s, hs, .refl _⟩
    | some place => exact ⟨s, hs, .refl _⟩
  | drain => exact drain_carries
  | during failure =>
    exact onSession_carries
      (.bind (fun _ _ _ => .trans) (during_leads (body_leads failure)) fun _ => .pure .refl _)
  | finish =>
    exact onSession_carries
      (.bind (fun _ _ _ => .trans) (Ending.finish setting.now).leads fun _ => .pure .refl _)
  | close =>
    exact onSession_carries (.bind (fun _ _ _ => .trans) Ending.close.leads fun _ => .pure .refl _)
  | chunk i step =>
    rintro ⟨c, w⟩ s hs
    simp only at hs
    simp only [SessionCaller.step, hs]
    cases itemAt? c.chunks i with
    | none => exact ⟨s, hs, .refl _⟩
    | some chunk => exact ⟨s, hs, onChunk_leads chunk step s w⟩

theorem steps_carry (setting : Setting) {steps : List SessionStep}
    (hsteps : ∀ step ∈ steps, step ≠ .establish) (x : SessionCaller × σ) :
    Carries D x (steps.foldl (fun x step => (SessionCaller.step D setting step x).2) x) := by
  induction steps generalizing x with
  | nil => exact .refl x
  | cons step steps ih =>
    obtain ⟨hstep, hsteps⟩ := List.forall_mem_cons.mp hsteps
    exact (step_carries setting hstep x).trans (ih hsteps _)

end SessionCaller

end Usage

/-! ## 3. What is stored -/

section Watched

variable {D : Depots σ}

/-- Up to the first ending nothing is stored. -/
theorem storesNothing_of_course_nil {x y : Session × (σ × List Act)}
    (h : Session.Course D.watched x [] y) (hx : ∀ act ∈ x.2.2, act.StoresNothing) :
    ∀ act ∈ y.2.2, act.StoresNothing :=
  (Session.goesOn_of_uses (stayWithin_storesNothing D)
    (Session.uses_of_course_nil h)).related.storesNothing hx

/-- Where the first ending finishes the session and something was stored, finishing stored it. -/
theorem eq_of_first_finish {now : Moment} {x y z : Session × (σ × List Act)}
    {rest : List (Session.Ending × (Session × (σ × List Act)))}
    (h : Session.Course D.watched x ((.finish now, y) :: rest) z) (hopen : x.1.closed = false)
    (hx : ∀ act ∈ x.2.2, act.StoresNothing) {before after : List Act} {name : Text}
    {content : Bytes} {outcome : Except Fault Unit}
    (hz : z.2.2 = before ++ .stored name content outcome :: after) :
    (∀ act ∈ before ++ after, act.StoresNothing) ∧ y.1.closed = false ∧
      name = Manifest.resourceName ∧
      before = y.2.2 ++ y.1.liveDelivery.shutting ++ [.released .remote (.ok ())] ∧
      ∃ after', (Session.finish D.watched now y).2.2.2 =
        before ++ .stored name content outcome :: after' ∧ after' <+: after := by
  obtain ⟨huses, hrest⟩ :=
    Session.Course.split (show Session.Course D.watched x ([] ++ (.finish now, y) :: rest) z from h)
  have hclosed : y.1.closed = false :=
    (Session.goesOn_of_uses D.watched.stayWithin_true
      (Session.uses_of_course_nil huses)).closed.trans hopen
  have hy := storesNothing_of_course_nil huses hx
  obtain ⟨added, hacts, hadded⟩ := (Session.goesOn_of_closed (stayWithin_storesNothing D) hrest
    ((Session.Ending.finish now).closed_run y)).related
  have hrun : (Session.finish D.watched now y).2.2 =
      (Session.recordPass D.watched now y.1 y.1.liveDelivery y.2).2 := by
    rw [Session.finish_eq (s := y.1) hclosed now y.2]
  have hend : (Session.Ending.run D.watched (.finish now) y).2.2.2 =
      (Session.recordPass D.watched now y.1 y.1.liveDelivery y.2).2.2 := congrArg Prod.snd hrun
  rw [hend] at hacts
  rcases recordPass_watched (D := D) now y.1 y.1.liveDelivery y.2 with
    hnothing | ⟨content', outcome', released, -, hrecorded⟩
  · -- finishing stored nothing, and nothing else did
    have hstored : (Act.stored name content outcome).StoresNothing := by
      have hmem : Act.stored name content outcome ∈ z.2.2 := by rw [hz]; simp
      rw [hacts] at hmem
      rcases List.mem_append.mp hmem with hmem | hmem
      · exact hnothing.storesNothing hy _ hmem
      · exact hadded _ hmem
    exact absurd rfl hstored
  · have hbefore : ∀ act ∈ y.2.2 ++ y.1.liveDelivery.shutting ++ [.released .remote (.ok ())],
        act.StoresNothing := by
      intro act hact
      simp only [List.mem_append, List.mem_singleton] at hact
      rcases hact with (hact | hact) | rfl
      · exact hy act hact
      · exact (Delivery.isOther_of_mem_shutting hact).storesNothing
      · simp [Act.StoresNothing, Act.role]
    have hafter : ∀ act ∈ [.released .copy released] ++ added, act.StoresNothing := by
      intro act hact
      rcases List.mem_append.mp hact with hact | hact
      · obtain rfl := List.mem_singleton.mp hact
        simp [Act.StoresNothing, Act.role]
      · exact hadded act hact
    -- one act stores something, so it is the one that finishing stored the manifest by
    rw [hacts, hrecorded, List.append_assoc, List.cons_append,
      List.append_cons_inj_of_notMem (fun hmem => hbefore _ hmem rfl)
      (fun hmem => hafter _ hmem rfl)] at hz
    obtain ⟨hbeforeEq, hact, hafterEq⟩ := hz
    cases hact
    subst hbeforeEq hafterEq
    refine ⟨?_, hclosed, rfl, rfl, [.released .copy released], ?_, List.prefix_append _ _⟩
    · intro act hact
      rcases List.mem_append.mp hact with hact | hact
      · exact hbefore act hact
      · exact hafter act hact
    · rw [hrun]
      exact hrecorded

/-- **The update is recorded at most once, and only by the first end of a session.** Whatever was
    done with a session that was opened:

    * if something was stored, the session was first ended by finishing it. That stored the
      manifest, right after the live chunk was closed and the remote place released, and nothing
      else was stored before or after;
    * if the session was first closed, nothing was stored, and what all operations but storing leave
      alone is as before the session;
    * every ending after the first succeeds and does nothing. -/
theorem stored_at_most_once {hasCopy : Bool} {comment : Option Text} {w : σ} {s : Session}
    {y : σ × List Act} (hs : Session.establish D.watched hasCopy comment (w, []) = (.ok s, y))
    {ends : List (Session.Ending × (Session × (σ × List Act)))} {z : Session × (σ × List Act)}
    (h : Session.Course D.watched (s, y) ends z) :
    (∀ before name content outcome after,
      z.2.2 = before ++ .stored name content outcome :: after →
      (∀ act ∈ before ++ after, act.StoresNothing) ∧
      ∃ now x rest after', ends = (.finish now, x) :: rest ∧ x.1.closed = false ∧
        before = x.2.2 ++ x.1.liveDelivery.shutting ++ [.released .remote (.ok ())] ∧
        (Session.finish D.watched now x).2.2.2 = before ++ .stored name content outcome :: after' ∧
        after' <+: after ∧ name = Manifest.resourceName) ∧
    (∀ x rest, ends = (.close, x) :: rest → (∀ act ∈ z.2.2, act.StoresNothing) ∧
      ∀ R, D.StayWithin R → (∀ side, Run.Within R (D.release side)) → R w z.2.1) ∧
    ∀ past e x rest, ends = past ++ (e, x) :: rest → past ≠ [] →
      e.run D.watched x = (.ok (), x) := by
  have hopen : s.closed = false := (Session.establish_eq_ok_iff.mp hs).isFresh.closed
  have hy : ∀ act ∈ y.2, act.StoresNothing :=
    ((Session.establish_within (stayWithin_storesNothing D) hasCopy comment).of_eq hs).storesNothing
      (by simp)
  have hclose : ∀ x rest, ends = (.close, x) :: rest → ∀ act ∈ z.2.2, act.StoresNothing := by
    rintro x rest rfl
    have hadds :=
      Session.related_of_first_close (stayWithin_storesNothing D) (release_adds D) hopen h
    exact hadds.storesNothing hy
  refine ⟨?_, ?_, ?_⟩
  · intro before name content outcome after hz
    have hstored : ¬∀ act ∈ z.2.2, act.StoresNothing := fun hall =>
      hall (.stored name content outcome) (by rw [hz]; simp) rfl
    cases ends with
    | nil => exact absurd (storesNothing_of_course_nil h hy) hstored
    | cons first rest =>
      obtain ⟨e, x⟩ := first
      cases e with
      | close => exact absurd (hclose x rest rfl) hstored
      | finish now =>
        obtain ⟨hnothing, hclosed, hname, hbefore, after', hfinish, hafter⟩ :=
          eq_of_first_finish h hopen hy hz
        exact ⟨hnothing, now, x, rest, after', rfl, hclosed, hbefore, hfinish, hafter, hname⟩
  · intro x rest hends
    refine ⟨hclose x rest hends, fun R hD hrelease => ?_⟩
    subst hends
    have hestablished := (Session.establish_within hD.watched hasCopy comment).of_eq hs
    exact hD.trans _ _ _ hestablished
      (Session.related_of_first_close hD.watched (fun side x => hrelease side x.1) hopen h)
  · rintro past e x rest rfl hpast
    obtain ⟨hbefore, -⟩ := h.split
    exact e.run_of_closed (Session.closed_of_course hbefore hpast)

end Watched

open Session in
/-- A session that is finished after its first chunk was handed out, and then closed. -/
theorem stored_at_most_once_offering :
    ∃ s y x x' z before content outcome after,
      establish Rehearsal.depots.watched true none (Rehearsal.offering [], []) = (.ok s, y) ∧
      Course Rehearsal.depots.watched (s, y) [(.finish .earliest, x), (.close, x')] z ∧
      z.2.2 = before ++ .stored Manifest.resourceName content outcome :: after ∧
      (∀ act ∈ before ++ after, act.StoresNothing) ∧
      before = x.2.2 ++ x.1.liveDelivery.shutting ++ [.released .remote (.ok ())] ∧
      Session.close Rehearsal.depots.watched x' = (.ok (), x') := by
  have hstoring :
      (match establish Rehearsal.depots.watched true none (Rehearsal.offering [], []) with
      | (.ok s, y) =>
        let x := (next Rehearsal.depots.watched 0 (iterate Rehearsal.depots.watched (s, y)).2).2
        let x' := (Session.finish Rehearsal.depots.watched .earliest x).2
        (Session.close Rehearsal.depots.watched x').2.2.2.map Act.role
      | (.error _, _) => []).contains .storing = true := by
    decide +kernel
  rcases hs : establish Rehearsal.depots.watched true none (Rehearsal.offering [], []) with
    ⟨fault | s, y⟩
  · simp [hs] at hstoring
  simp only [hs, List.contains_iff_mem] at hstoring
  have hcourse : Course Rehearsal.depots.watched (s, y) _ _ :=
    .ending (.ending (.use (.use .start (.iterate _)) (.next 0 _)) (.finish .earliest)) .close
  obtain ⟨hfinished, -, hlater⟩ := stored_at_most_once hs hcourse
  obtain ⟨act, hact, hrole⟩ := List.mem_map.mp hstoring
  obtain ⟨name, content, outcome, rfl⟩ := Act.exists_of_role_storing hrole
  obtain ⟨before, after, hz⟩ := List.append_of_mem hact
  obtain ⟨hnothing, now, x, rest, after', hends, -, hbefore, -, -, rfl⟩ := hfinished _ _ _ _ _ hz
  obtain ⟨hfirst, -⟩ := List.cons.inj hends
  obtain ⟨-, rfl⟩ := Prod.mk.inj hfirst
  exact ⟨s, y, _, _, _, before, content, outcome, after, rfl, hcourse, hz, hnothing, hbefore,
    hlater [_] .close _ [] rfl (by simp)⟩

end IndexChain
