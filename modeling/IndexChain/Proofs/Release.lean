import IndexChain.Proofs.Ownership

/-!
# Release — both places, once

Ending a session releases the places that it uses. Of what an ending does in turn (closing the live
chunk, releasing the remote place, recording, releasing the copy) everything may fail, and in any
combination.

* Neither opening a session nor using it releases anything, and nor does ending it again: what is
  released is released by the first ending.
* That ending releases **each place exactly once, whatever fails** (`finalize_releases`,
  `release_releases`), but for one way to fail: *finishing* a session answers a live chunk that
  cannot be closed by releasing both places only if the fault is an ordinary one. An interruption is
  let pass.

The session counts as closed then, so that nobody will release the places later.
-/

namespace IndexChain

variable {σ : Type}

namespace Act

/-- The place that was to be released, whatever came of it. -/
def released? : Act → Option Side
  | released side _ => some side
  | _ => none

/-- The places that were to be released, in order. -/
def releases (acts : List Act) : List Side := acts.filterMap released?

/-- Whether no place was to be released. -/
def ReleasesNothing (act : Act) : Prop := act.released? = none

@[simp] theorem releases_append (acts added : List Act) :
    releases (acts ++ added) = releases acts ++ releases added :=
  List.filterMap_append

theorem releases_eq_nil {acts : List Act} (h : ∀ act ∈ acts, act.ReleasesNothing) :
    releases acts = [] :=
  List.filterMap_eq_nil_iff.mpr h

end Act

theorem Adds.releases {x y : σ × List Act} (h : Adds Act.ReleasesNothing x y) :
    Act.releases y.2 = Act.releases x.2 := by
  obtain ⟨added, hacts, hadded⟩ := h
  rw [hacts, Act.releases_append, Act.releases_eq_nil hadded, List.append_nil]

theorem stayWithin_releasesNothing (D : Depots σ) :
    D.watched.StayWithin (Adds Act.ReleasesNothing) :=
  stayWithin_adds D (fun _ _ _ => rfl) (fun _ _ => rfl) fun _ _ => rfl

/-- The places that a session uses. -/
def Session.sides (hasCopy : Bool) : List Side := .remote :: if hasCopy then [.copy] else []

section Release

variable (D : Depots σ) (x : σ × List Act)

theorem releases_release (side : Side) :
    Act.releases (D.watched.release side x).2.2 = Act.releases x.2 ++ [side] := by
  show Act.releases (x.2 ++ [.released side _]) = _
  rw [Act.releases_append]
  rfl

theorem release_releases (hasCopy : Bool) :
    Act.releases (Session.release D.watched hasCopy x).2.2 = Act.releases x.2 ++
      Session.sides hasCopy := by
  unfold Session.release
  rw [Run.ensure_snd]
  cases hasCopy with
  | false => exact releases_release D x .remote
  | true =>
    simp only [if_true]
    rw [releases_release, releases_release, List.append_assoc]
    rfl

theorem record_releases (published : Manifest) (comment : Option Text) (now : Moment) :
    Act.releases (Handover.record D.watched published comment now x).2.2 = Act.releases x.2 := by
  rcases record_watched (D := D) (x := x) published comment now with
    ⟨content, outcome, -, hacts⟩ | hacts
  · rw [hacts, Act.releases_append]
    exact List.append_nil _
  · rw [hacts]

theorem finalize_releases (hasCopy : Bool) (published : Manifest) (comment : Option Text)
    (now : Moment) :
    Act.releases (Handover.finalize D.watched hasCopy published comment now x).2.2 =
      Act.releases x.2 ++ Session.sides hasCopy := by
  unfold Handover.finalize
  cases hasCopy with
  | false => exact releases_release D x .remote
  | true =>
    simp only [if_true]
    rw [Run.ensure_snd, releases_release]
    have hbefore : Act.releases ((D.watched.release .remote >>= fun _ =>
        Handover.record D.watched published comment now) x).2.2 = Act.releases x.2 ++
          [.remote] := by
      refine Run.holds_bind
        (P := fun y : σ × List Act => Act.releases y.2 = Act.releases x.2 ++ [.remote])
        (releases_release D x .remote) fun _ y hy => ?_
      rw [record_releases, hy]
    rw [hbefore, List.append_assoc]
    rfl

end Release

namespace Session

variable {D : Depots σ}

/-- Finishing the session, its live chunk cannot be closed, for a reason that clean-up lets pass. -/
def Ending.IsInterrupted (D : Depots σ) (e : Ending) (x : Session × σ) : Prop :=
  ∃ now fault, e = .finish now ∧ (x.1.liveDelivery.shutCurrent D x.2).1 = .error fault ∧
    fault.isOrdinary = false

theorem Ending.onPlaces_releases (e : Ending) (x : Session × (σ × List Act)) :
    (e.IsInterrupted D.watched x →
      Act.releases (e.onPlaces D.watched x.1 x.2).2.2 = Act.releases x.2.2) ∧
    (¬e.IsInterrupted D.watched x →
      Act.releases (e.onPlaces D.watched x.1 x.2).2.2 = Act.releases x.2.2 ++
        sides x.1.hasCopy) := by
  have hshut :=
    (Delivery.shutCurrent_within (stayWithin_releasesNothing D) x.1.liveDelivery x.2).releases
  cases e with
  | close =>
    constructor
    · rintro ⟨_, _, hfinish, -⟩
      cases hfinish
    · intro _
      show Act.releases ((x.1.liveDelivery.shutCurrent D.watched).ensure _ x.2).2.2 = _
      rw [Run.ensure_snd, release_releases, hshut]
  | finish now =>
    simp only [Ending.onPlaces, recordPass]
    rcases hclose : x.1.liveDelivery.shutCurrent D.watched x.2 with ⟨fault | ⟨⟩, y⟩
    all_goals
      rw [hclose] at hshut
      simp only
    · by_cases hordinary : fault.isOrdinary = true
      · -- both places are released, and the fault is raised again
        simp only [hordinary, if_true]
        constructor
        · rintro ⟨_, fault', -, herror, hpassed⟩
          rw [hclose] at herror
          cases herror
          rw [hordinary] at hpassed
          cases hpassed
        · intro _
          rw [← hshut, ← release_releases D y]
          exact Run.holds_bind (P := fun z : σ × List Act => Act.releases z.2 = Act.releases
            (release D.watched x.1.hasCopy y).2.2) rfl fun _ _ hz => hz
      · have hpassed : fault.isOrdinary = false := Bool.eq_false_iff.mpr hordinary
        simp only [hpassed]
        refine ⟨fun _ => hshut, fun hnot => ?_⟩
        exact absurd ⟨now, fault, rfl, congrArg Prod.fst hclose, hpassed⟩ hnot
    · constructor
      · rintro ⟨_, fault, -, herror, -⟩
        rw [hclose] at herror
        cases herror
      · intro _
        rw [finalize_releases, hshut]

variable {x z : Session × (σ × List Act)} {ends : List (Ending × (Session × (σ × List Act)))}

/-- **The first ending releases both places, each once, unless it is interrupted.** Before it
    nothing is released, and neither is anything after it. So if it is interrupted nothing is ever
    released. -/
theorem released_unless_interrupted {hasCopy : Bool} {comment : Option Text} {w : σ} {s : Session}
    {u : σ × List Act} (hs : establish D.watched hasCopy comment (w, []) = (.ok s, u)) {e : Ending}
    (h : Course D.watched (s, u) ((e, x) :: ends) z) :
    Act.releases x.2.2 = [] ∧
    (Act.releases z.2.2 = sides hasCopy ↔ ¬e.IsInterrupted D.watched x) ∧
    (e.IsInterrupted D.watched x → Act.releases z.2.2 = []) := by
  have hestablished := establish_eq_ok_iff.mp hs
  obtain ⟨hfirst, hrest⟩ :=
    Course.split (show Course D.watched (s, u) ([] ++ (e, x) :: ends) z from h)
  have hgoes := goesOn_of_uses (stayWithin_releasesNothing D) (uses_of_course_nil hfirst)
  have hbefore : Act.releases x.2.2 = [] := by
    rw [hgoes.related.releases]
    exact ((establish_within (stayWithin_releasesNothing D) hasCopy comment).of_eq hs).releases
  have hafter : Act.releases z.2.2 = Act.releases (e.onPlaces D.watched x.1 x.2).2.2 := by
    have hclosed := e.closed_run (D := D.watched) x
    rw [(goesOn_of_closed (stayWithin_releasesNothing D) hrest hclosed).related.releases,
      e.run_eq (hgoes.closed.trans hestablished.isFresh.closed)]
  have hsides : sides x.1.hasCopy = sides hasCopy := by
    rw [hgoes.hasCopy, hestablished.hasCopy_eq]
  obtain ⟨hinterrupted, hreleased⟩ := e.onPlaces_releases (D := D) x
  rw [hbefore] at hinterrupted hreleased
  rw [hafter]
  refine ⟨hbefore, ⟨fun hall hnot => ?_, fun hnot => ?_⟩, hinterrupted⟩
  · rw [hinterrupted hnot] at hall
    cases hall
  · rw [hreleased hnot, List.nil_append, hsides]

end Session

/-! ### Two rehearsals -/

open Session in
/-- The live chunk cannot be closed, and both places are released. -/
theorem released_unless_interrupted_clinging :
    ∃ s u x z,
      establish Rehearsal.depots.watched true none (Rehearsal.clinging (.io .general), []) =
        (.ok s, u) ∧
      Course Rehearsal.depots.watched (s, u) [(.finish .earliest, x)] z ∧
      (x.1.liveDelivery.shutCurrent Rehearsal.depots.watched x.2).1.toOption = none ∧
      Act.releases z.2.2 = [.remote, .copy] := by
  have hcheck : (establish Rehearsal.depots.watched true none).passes (fun s u =>
      let x := (next Rehearsal.depots.watched 0 (iterate Rehearsal.depots.watched (s, u)).2).2
      match (x.1.liveDelivery.shutCurrent Rehearsal.depots.watched x.2).1 with
      | .ok () => false
      | .error fault => fault.isOrdinary) (Rehearsal.clinging (.io .general), []) = true := by
    decide +kernel
  obtain ⟨s, u, hs, hcheck⟩ := Run.exists_of_passes hcheck
  simp only at hcheck
  have hcourse : Course Rehearsal.depots.watched (s, u) _ _ :=
    .ending (.use (.use .start (.iterate _)) (.next 0 _)) (.finish .earliest)
  obtain ⟨-, hreleased, -⟩ := released_unless_interrupted hs hcourse
  generalize (next Rehearsal.depots.watched 0 (iterate Rehearsal.depots.watched (s, u)).2).2 = x
    at hcheck hcourse hreleased
  rcases hshut : (x.1.liveDelivery.shutCurrent Rehearsal.depots.watched x.2).1 with fault | ⟨⟩
  · rw [hshut] at hcheck
    refine ⟨s, u, x, _, hs, hcourse, by rw [hshut]; rfl, hreleased.mpr ?_⟩
    rintro ⟨_, fault', -, hfault, hpassed⟩
    rw [hshut] at hfault
    cases hfault
    simp only [hpassed] at hcheck
    cases hcheck
  · rw [hshut] at hcheck
    cases hcheck

open Session in
/-- **Neither place is ever released.** Closing the live chunk was interrupted when the session was
    to be finished; closing the session afterwards does nothing. -/
theorem unreleased_of_interrupted :
    ∃ s u x y z,
      establish Rehearsal.depots.watched true none (Rehearsal.clinging .interrupted, []) =
        (.ok s, u) ∧
      Course Rehearsal.depots.watched (s, u) [(.finish .earliest, x), (.close, y)] z ∧
      z.1.closed = true ∧ Act.releases z.2.2 = [] := by
  have hcheck : (establish Rehearsal.depots.watched true none).passes (fun s u =>
      let x := (next Rehearsal.depots.watched 0 (iterate Rehearsal.depots.watched (s, u)).2).2
      let y := (Session.finish Rehearsal.depots.watched .earliest x).2
      let z := (Session.close Rehearsal.depots.watched y).2
      z.1.closed && Act.releases z.2.2 = []) (Rehearsal.clinging .interrupted, []) = true := by
    decide +kernel
  obtain ⟨s, u, hs, hcheck⟩ := Run.exists_of_passes hcheck
  simp only [Bool.and_eq_true, decide_eq_true_eq] at hcheck
  have hcourse : Course Rehearsal.depots.watched (s, u) _ _ :=
    .ending (.ending (.use (.use .start (.iterate _)) (.next 0 _)) (.finish .earliest)) .close
  exact ⟨s, u, _, _, _, hs, hcourse, hcheck⟩

end IndexChain
