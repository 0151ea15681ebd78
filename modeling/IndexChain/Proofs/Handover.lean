import IndexChain.Proofs.Entries.RoundTrip
import IndexChain.Proofs.History
import IndexChain.Proofs.Succession

/-!
# Handover — all of a manifest or nothing

At the end of a session four things are done in turn: the remote place is released, the manifest is
made into bytes, the bytes are stored, and the copy is released. Each of them can fail, and
`Recorded` lists what that leads to up to the release of the copy, which comes in any case.

**The copy's manifest is replaced exactly if the first three succeed** (`finalize_all_or_nothing`),
whatever becomes of the last one. So a session that was not finished well may have recorded its
update all the same; what it never does is to record half of it, or to touch another resource.

The places are any that store content whole or not at all (`Depots.Holding`).
-/

namespace IndexChain

variable {σ : Type}

/-- What the copy holds under a name changes only by storing, and only if that succeeds. -/
structure Depots.Holding (D : Depots σ) (held : σ → Text → Option Bytes) : Prop where
  release : ∀ side w, held (D.release side w).2 = held w
  note : ∀ record w, held (D.note record w) = held w
  store_ok : ∀ {name content w w'}, D.store name content w = (.ok (), w') →
    held w' = Function.update (held w) name (some content)
  store_error : ∀ {name content w w' fault}, D.store name content w = (.error fault, w') →
  held w' = held w

namespace Handover

/-! ## 1. Between the two releases -/

/-- The act by which a manifest with this content replaces the copy's. -/
def storing (content : Bytes) (outcome : Except Fault Unit) : Act :=
  .stored Manifest.resourceName content outcome

/-- What was done between the releases, by how the first of them ended, and what came of it. -/
inductive Recorded (published : Manifest) (comment : Option Text) (now : Moment) :
    Except Fault Unit → List Act → Except Fault Unit → Prop
  /-- The remote place could not be released. -/
  | unreleased (fault : Fault) : Recorded published comment now (.error fault) [] (.error fault)
  /-- The comment cannot be written. -/
  | unencodable : published.entries.toBytes? comment now = none →
      Recorded published comment now (.ok ()) [] (.error .unencodable)
  /-- The manifest was to be stored. -/
  | stored {content : Bytes} (outcome : Except Fault Unit) :
      published.entries.toBytes? comment now = some content →
      Recorded published comment now (.ok ()) [storing content outcome] outcome

/-- What is held after some acts. -/
def heldAfter (held : Text → Option Bytes) : List Act → Text → Option Bytes
  | [] => held
  | .stored name content (.ok ()) :: acts =>
    heldAfter (Function.update held name (some content)) acts
  | _ :: acts => heldAfter held acts

section

variable {D : Depots σ} {held : σ → Text → Option Bytes}

/-- Recording stores the manifest, or tries to, or does nothing. -/
theorem record_recorded (hD : D.Holding held) (published : Manifest) (comment : Option Text)
    (now : Moment) (x : σ × List Act) :
    ∃ outcome w added, record D.watched published comment now x = (outcome, w, x.2 ++ added) ∧
      Recorded published comment now (.ok ()) added outcome ∧
      held w = heldAfter (held x.1) added := by
  unfold record
  cases hcontent : published.entries.toBytes? comment now with
  | none => exact ⟨_, x.1, [], by rw [List.append_nil]; rfl, .unencodable hcontent, rfl⟩
  | some content =>
    rcases hstore : D.store Manifest.resourceName content x.1 with ⟨fault | ⟨⟩, w⟩
    all_goals
      have hwatched : D.watched.store Manifest.resourceName content x = _ :=
        Run.watched_of_eq hstore x.2
    · exact ⟨_, w, _, Run.bind_of_error hwatched, .stored (.error fault) hcontent,
        hD.store_error hstore⟩
    · exact ⟨_, _, _, Run.bind_of_ok hwatched, .stored (.ok ()) hcontent,
        (hD.note _ w).trans (hD.store_ok hstore)⟩

/-- **A handover, act by act**: what it did between the releases, and what came of all of it. A
fault in releasing the copy takes the place of any that came before. -/
theorem finalize_recorded (hD : D.Holding held) (published : Manifest) (comment : Option Text)
    (now : Moment) (w : σ) (acts : List Act) :
    ∃ onRemote added outcome onCopy w',
      finalize D.watched true published comment now (w, acts) =
        (onCopy >>= fun _ => outcome, w',
          acts ++ .released .remote onRemote :: (added ++ [.released .copy onCopy])) ∧
      Recorded published comment now onRemote added outcome ∧
      held w' = heldAfter (held w) added := by
  -- what comes before the release of the copy
  have hbody : ∃ onRemote added outcome v,
      (D.watched.release .remote >>= fun _ => record D.watched published comment now) (w, acts) =
        (outcome, v, acts ++ .released .remote onRemote :: added) ∧
      Recorded published comment now onRemote added outcome ∧
      held v = heldAfter (held w) added := by
    rcases hrelease : D.release .remote w with ⟨fault | ⟨⟩, u⟩
    all_goals
      have hheld : held u = held w := by
        have h := hD.release .remote w
        rwa [hrelease] at h
      have hwatched : D.watched.release .remote (w, acts) = _ := Run.watched_of_eq hrelease acts
    · exact ⟨_, [], _, u, Run.bind_of_error hwatched, .unreleased fault, hheld⟩
    · obtain ⟨outcome, v, added, hrecord, hrecorded, hadded⟩ :=
        record_recorded hD published comment now
        (u, acts ++ [.released .remote (.ok ())])
      refine ⟨.ok (), added, outcome, v, ?_, hrecorded, hadded.trans (by rw [hheld])⟩
      rw [Run.bind_of_ok hwatched, hrecord, List.append_assoc, List.singleton_append]
  obtain ⟨onRemote, added, outcome, v, hrun, hrecorded, hadded⟩ := hbody
  refine ⟨onRemote, added, outcome, (D.release .copy v).1, (D.release .copy v).2, ?_, hrecorded,
    (hD.release .copy v).trans hadded⟩
  simp only [finalize, if_true]
  rw [Run.ensure_apply, hrun]
  simp only [Depots.watched, Run.watched, List.append_assoc, List.cons_append]

/-! ## 2. What is left behind -/

/-- **A handover records all of a manifest or nothing**, at places that store content whole or not
at all and may fail in anything they do. The remote place is released first and the copy last, each
once. In between the manifest is stored if the remote place was released and the comment is Latin-1,
and only then. If that succeeds, the copy holds under the manifest's name what is read as the
published entries, and everything else as before; if it does not, or was not tried, everything is as
before. The handover succeeds exactly if all of it did, and else it fails with the fault of the last
step that failed. -/
theorem finalize_all_or_nothing (hD : D.Holding held) (published : Manifest) (comment : Option Text)
    (now : Moment) (w : σ) (acts : List Act) :
    ∃ outcome w' onRemote added onCopy,
      finalize D.watched true published comment now (w, acts) =
        (outcome, w', acts ++ .released .remote onRemote :: (added ++ [.released .copy onCopy])) ∧
      (added = [] ∨ ∃ content stored, added = [storing content stored]) ∧
      (added ≠ [] ↔ onRemote = .ok () ∧ ∀ c ∈ comment.getD [], c.val < 256) ∧
      (∀ content, added = [storing content (.ok ())] →
        held w' = Function.update (held w) Manifest.resourceName (some content) ∧
        (published.entries.IsWhole → Entries.ofPayload (.bytes content) = .ok published.entries)) ∧
      ((∀ content, added ≠ [storing content (.ok ())]) → held w' = held w) ∧
      (outcome = .ok () ↔ onRemote = .ok () ∧ (∀ c ∈ comment.getD [], c.val < 256) ∧
        (∃ content, added = [storing content (.ok ())]) ∧ onCopy = .ok ()) ∧
      ∀ fault, outcome = .error fault ↔ onCopy = .error fault ∨ onCopy = .ok () ∧
        (onRemote = .error fault ∨ onRemote = .ok () ∧
          ((¬∀ c ∈ comment.getD [], c.val < 256) ∧ fault = .unencodable ∨
            ∃ content, added = [storing content (.error fault)])) := by
  obtain ⟨onRemote, added, recorded, onCopy, w', hrun, hrecorded, hheld⟩ :=
    finalize_recorded hD published comment now w acts
  refine ⟨_, w', onRemote, added, onCopy, hrun, ?_⟩
  have hlatin : (∃ bytes, published.entries.toBytes? comment now = some bytes) ↔
      ∀ c ∈ comment.getD [], c.val < 256 := Entries.exists_toBytes?_iff published.entries now
  generalize (∀ c ∈ comment.getD [], c.val < 256) = latin at hlatin ⊢
  cases hrecorded with
  | unreleased fault => rcases onCopy with fault' | ⟨⟩ <;>
    simp [hheld, heldAfter, bind, Except.bind, eq_comm]
  | unencodable hnone =>
    have hnot : ¬latin := fun h => by simpa [hnone] using hlatin.mpr h
    rcases onCopy with fault' | ⟨⟩ <;> simp [hnot, hheld, heldAfter, bind, Except.bind, eq_comm]
  | stored _ hcontent =>
    have hall : latin := hlatin.mp ⟨_, hcontent⟩
    rcases recorded with fault | ⟨⟩
    · rcases onCopy with fault' | ⟨⟩ <;>
        simp [hall, hheld, heldAfter, storing, bind, Except.bind, eq_comm]
    · -- what was stored is what is read
      have hread (hwhole : published.entries.IsWhole) :=
        Entries.ofPayload_of_toBytes? hwhole hcontent
      rcases onCopy with fault' | ⟨⟩ <;>
        simpa [hall, hheld, heldAfter, storing, bind, Except.bind] using hread

end

end Handover

/-! ## 3. A rehearsal -/

namespace Rehearsal

/-- A place that is told to fail does so before it changes anything but its record. -/
theorem holding : depots.Holding fun r name => r.holds .copy name where
  release side r := by
    show (release side r).2.holds .copy = r.holds .copy
    unfold release
    simp only
    split <;> cases side <;> rfl
  note _ _ := rfl
  store_ok {name content r r'} h := by
    funext other
    change store name content r = _ at h
    unfold store at h
    split at h
    · cases h
    · cases h
      simp [holds, record, place, Pairs.get?_set, Function.update_apply, eq_comm]
  store_error {name content r r' fault} h := by
    change store name content r = _ at h
    unfold store at h
    split at h
    · cases h
      rfl
    · cases h

/-- A copy that holds something else, and cannot be released. -/
def jammed : Rehearsal where
  copy := { resources := [("chunk", [7])], failRelease := some (.io .general) }

/-- A manifest that says no more than which index it is of. -/
def named : Manifest :=
  ⟨⟨[(Manifest.indexIdKey, "central")], by decide⟩, some "central", none, none, none, []⟩

end Rehearsal

/-- Whether both places were released, the copy in vain, and something was stored in between. -/
def Act.areJammed : List Act → Bool
  | [.released .remote (.ok ()), .stored _ _ (.ok ()), .released .copy (.error _)] => true
  | _ => false

open Rehearsal in
/-- The copy cannot be released. The handover fails, and has recorded the manifest. -/
theorem finalize_all_or_nothing_jammed :
    ∃ fault r acts content,
      Handover.finalize depots.watched true named (some "mirror") .earliest (jammed, []) =
        (.error fault, r, acts) ∧
      r.holds .copy Manifest.resourceName = some content ∧ r.holds .copy "chunk" = some [7] ∧
      Entries.ofPayload (.bytes content) = .ok named.entries := by
  have hcheck : Act.areJammed
      (Handover.finalize depots.watched true named (some "mirror") .earliest (jammed, [])).2.2 =
        true := by
    decide +kernel
  have hwhole : ∀ p ∈ named.entries.pairs, (∀ c ∈ p.1, c.isSurrogate = false) ∧
      ∀ c ∈ p.2, c.isSurrogate = false := by decide +kernel
  obtain ⟨outcome, r, onRemote, added, onCopy, hrun, hadded, -, hstored, -, -, hfault⟩ :=
    Handover.finalize_all_or_nothing holding named (some "mirror") .earliest jammed []
  rw [hrun] at hcheck
  rcases hadded with rfl | ⟨content, stored, rfl⟩
  · rcases onRemote with _ | ⟨⟩ <;> simp [Act.areJammed] at hcheck
  rcases onRemote with _ | ⟨⟩ <;> rcases stored with _ | ⟨⟩ <;> rcases onCopy with fault | ⟨⟩
  case inr.ok.ok.error =>
    obtain ⟨hheld, hread⟩ := hstored content rfl
    refine ⟨fault, r, _, content, hrun.trans (by rw [(hfault fault).mpr (.inl rfl)]), ?_,
      ?_, hread hwhole⟩
    · exact (congrFun hheld _).trans (Function.update_self ..)
    · exact (congrFun hheld _).trans (Function.update_of_ne (by decide) ..)
  all_goals simp [Act.areJammed, Handover.storing] at hcheck

end IndexChain
