import IndexChain.Proofs.Plan
import IndexChain.Proofs.Succession

/-!
# Reopening — who is kept out by what was recorded

A first session has no copy to compare with, so it takes any published manifest, also one that does
not say of which index it is. The next session does have a copy, and opens only if both manifests
name one and the same index (`Plan.SameIndex`). What it finds in the copy is what was published, so
the two manifests differ in nothing; but **an index that is not named is not the same as itself**.
That is the only way in which an update that was recorded keeps the next session out.
-/

namespace IndexChain

theorem Plan.sameIndex_self_iff {m : Manifest} : Plan.SameIndex m m ↔ m.indexId.isSome = true := by
  simp [Plan.SameIndex, Option.isSome_iff_exists]

namespace Session

variable {σ : Type} {D D' : Depots σ} {view : σ → Side → Text → Option Bytes}
    {ready ready' : Side → σ → Prop}

/-- Where a session was opened against a copy, the published manifest names its index. -/
theorem Established.isSome_indexId {hasCopy : Bool} {comment : Option Text} {w w' : σ} {s : Session}
    (h : Established D hasCopy comment w s w') {copy : Manifest} (hcopy : s.copy = some copy) :
    s.published.indexId.isSome = true := by
  have hplan := h.plan_eq
  rw [hcopy] at hplan
  by_contra hunnamed
  have hnot : ¬Plan.SameIndex copy s.published := by
    rintro ⟨id, -, hid⟩
    simp [hid] at hunnamed
  rw [Plan.decide_of_not_sameIndex hnot] at hplan
  cases hplan

/-- **The next session opens unless the index is not named.** A session was opened between places
    that do not fail, was used in any way, and is then finished. It can be finished, and whatever
    happened since that left both manifests as they were:

    * if the published manifest names its index, a new session is opened, and both its manifests are
      the published one;
    * if it does not, the session that was finished had no copy, and a new one is refused. -/
theorem reopens_unless_unnamed (hD : D.Reliable view ready) (hD' : D'.Reliable view ready') {w : σ}
    (hready : ∀ side, ready side w) {content : Bytes}
    (hcontent : view w .remote Manifest.resourceName = some content) {comment : Option Text}
    (hcomment : ∀ c ∈ comment.getD [], c.val < 256) {s s₁ : Session} {w₁ w₂ : σ}
    (hs : establish D true comment w = (.ok s, w₁))
    (huses : Relation.ReflTransGen (Use D) (s, w₁) (s₁, w₂)) (now : Moment) :
    ∃ s₂ w₃, finish D now (s₁, w₂) = (.ok (), s₂, w₃) ∧
      ∀ comment' w₄,
      (∀ side, view w₄ side Manifest.resourceName = view w₃ side Manifest.resourceName) →
        (∀ side, ready' side w₄) →
        (s.published.indexId.isSome = true → ∃ t w₅, establish D' true comment' w₄ = (.ok t, w₅) ∧
          t.published = s.published ∧ t.copy = some s.published) ∧
        (s.published.indexId = none → s.copy = none ∧
          (establish D' true comment' w₄).1 = .error (.identityMismatch none none)) := by
  have hestablished := establish_eq_ok_iff.mp hs
  obtain ⟨s₂, w₃, stored, hfinish, hremote, hread, hcopied, hreadAgain⟩ :=
    found_after_finish hD hready hcontent hcomment hs huses now
  refine ⟨s₂, w₃, hfinish, fun comment' w₄ hview hready' => ?_⟩
  -- in both places the new session finds what was published
  have hremote' := (hview .remote).trans hremote
  have hcopied' := (hview .copy).trans hcopied
  constructor
  · intro hnamed
    obtain ⟨w₅, hopened⟩ :=
      establish_reliable hD' comment' hready' hremote' hread hcopied' hreadAgain
      (Plan.decide_self hnamed) hestablished.publishedAt_eq
    exact ⟨_, w₅, hopened, rfl, rfl⟩
  · intro hunnamed
    have hnot : ¬Plan.SameIndex s.published s.published := by
      rw [Plan.sameIndex_self_iff, hunnamed]
      decide
    constructor
    · cases hcopy : s.copy with
      | none => rfl
      | some copy =>
        -- with a copy the first session would have been refused
        have hnamed := hestablished.isSome_indexId hcopy
        rw [hunnamed] at hnamed
        cases hnamed
    · obtain ⟨w₅, hsettle⟩ :=
        establish_eq_settle hD' comment' hready' hremote' hread hcopied' hreadAgain
      rw [hsettle]
      simp only [settle, Plan.decide_of_not_sameIndex hnot, hunnamed]

end Session

/-! ### Two rehearsals -/

namespace Rehearsal

/-- The manifest of an index that is not named. -/
def unnamed : Bytes := (Text.toLatin1? "nexus.index.timestamp=20240115103000.123 +0000\n").getD []

/-- An index that is not named is published, and there is no copy. -/
def publishingUnnamed : Rehearsal :=
  renewed { remote := { resources := [(Manifest.resourceName, unnamed)] } }

/-- Whether a step was refused because neither the copy nor what is published is named. -/
def isUnnamed {α : Type} : Except Fault α → Bool
  | .error (.identityMismatch none none) => true
  | _ => false

theorem eq_of_isUnnamed {α : Type} {r : Except Fault α} (h : isUnnamed r = true) :
    r = .error (.identityMismatch none none) := by
  unfold isUnnamed at h
  split at h
  · rfl
  · cases h

end Rehearsal

open Rehearsal in
/-- A first session that is finished at once, and the next one. -/
theorem reopens_unless_unnamed_publishing :
    ∃ s w₁ s₂ w₃ t w₅, Session.establish depots true none publishing = (.ok s, w₁) ∧ s.copy = none ∧
      Session.finish depots .earliest (s, w₁) = (.ok (), s₂, w₃) ∧
      Session.establish depots true none w₃.renewed = (.ok t, w₅) ∧ t.copy = some s.published := by
  have hopened : (Session.establish depots true none publishing).1.toOption.any (fun s =>
      s.published.indexId.isSome && s.copy.isNone) = true := by
    decide +kernel
  rcases hs : Session.establish depots true none publishing with ⟨fault | s, w₁⟩
  · simp [hs, Except.toOption] at hopened
  simp only [hs, Except.toOption, Option.any_some, Bool.and_eq_true, Option.isNone_iff_eq_none]
    at hopened
  obtain ⟨hnamed, hcopy⟩ := hopened
  obtain ⟨s₂, w₃, hfinish, hnext⟩ := Session.reopens_unless_unnamed reliable reliable
    (fun _ => isUnscripted_renewed _) publishing_holds
    (show ∀ c ∈ (none : Option Text).getD [], c.val < 256 by simp) hs .refl .earliest
  obtain ⟨hreopens, -⟩ := hnext none w₃.renewed (fun side => holds_renewed w₃ side _)
    fun _ => isUnscripted_renewed w₃
  obtain ⟨t, w₅, hestablish, -, hfound⟩ := hreopens hnamed
  exact ⟨s, w₁, s₂, w₃, t, w₅, rfl, hcopy, hfinish, hestablish, hfound⟩

open Rehearsal in
/-- **The copy is locked out by the update that it recorded.** The index is not named, and what is
    published is as it was. -/
theorem refused_after_finish :
    ∃ s w₁ s₂ w₃, publishingUnnamed.holds .copy Manifest.resourceName = none ∧
      Session.establish depots true none publishingUnnamed = (.ok s, w₁) ∧
      Session.finish depots .earliest (s, w₁) = (.ok (), s₂, w₃) ∧
      w₃.renewed.remote = publishingUnnamed.remote ∧
      (Session.establish depots true none w₃.renewed).1 = .error (.identityMismatch none none) := by
  have hcheck : (Session.establish depots true none).passes (fun s w₁ =>
      (Session.finish depots .earliest).passes (fun _ y =>
        y.2.remote.resources = [(Manifest.resourceName, unnamed)] &&
          isUnnamed (Session.establish depots true none y.2.renewed).1) (s, w₁)) publishingUnnamed =
            true := by
    decide +kernel
  obtain ⟨s, w₁, hs, hcheck⟩ := Run.exists_of_passes hcheck
  obtain ⟨⟨⟩, ⟨s₂, w₃⟩, hfinish, hcheck⟩ := Run.exists_of_passes hcheck
  simp only [Bool.and_eq_true, decide_eq_true_eq] at hcheck
  obtain ⟨hremote, hrefused⟩ := hcheck
  refine ⟨s, w₁, s₂, w₃, rfl, hs, hfinish, ?_, eq_of_isUnnamed hrefused⟩
  simp [publishingUnnamed, renewed, hremote]

end IndexChain
