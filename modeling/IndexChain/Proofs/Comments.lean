import IndexChain.Proofs.Handover
import IndexChain.Settings

/-!
# Comments — what the label of a record does to the record

Whoever sets up a synchronisation may choose the comment under which its updates are recorded. It is
written over the entries and is nothing that is read again: whichever code points it has, line
breaks and backslashes among them, **the entries that are recorded under two comments are the same**
(`finalize_eq_iff_writable`).

But unlike the entries it is written as it is. A comment with a code point that has no Latin-1 byte
is not written, and then nothing is recorded, after all chunks were applied. This is the only
difference that a comment makes.
-/

namespace IndexChain.Handover

variable {σ : Type}

/-- The comment has Latin-1 bytes. -/
def Writable (comment : Option Text) : Prop := ∀ c ∈ comment.getD [], c.val < 256

instance (comment : Option Text) : Decidable (Writable comment) :=
  inferInstanceAs (Decidable (∀ c ∈ comment.getD [], c.val < 256))

/-- The handover succeeds, and the copy's manifest is then read as the published one. -/
def RecordsWhole (D : Depots σ) (view : σ → Side → Text → Option Bytes) (published : Manifest)
    (comment : Option Text) (now : Moment) (w : σ) : Prop :=
  ∃ content w', finalize D true published comment now w = (.ok (), w') ∧
    view w' .copy Manifest.resourceName = some content ∧
    Entries.ofPayload (.bytes content) = .ok published.entries

/-- The handover gives up on the comment, and nothing is stored in either place. -/
def RecordsNothing (D : Depots σ) (view : σ → Side → Text → Option Bytes) (published : Manifest)
    (comment : Option Text) (now : Moment) (w : σ) : Prop :=
  ∃ w', finalize D true published comment now w = (.error .unencodable, w') ∧
    ∀ side name, view w' side name = view w side name

section

variable {D : Depots σ} {view : σ → Side → Text → Option Bytes} {ready : Side → σ → Prop}
  {published : Manifest} {comment comment' : Option Text} {now now' : Moment} {w w' : σ}

theorem recordsWhole_of_writable (hD : D.Reliable view ready) (hwhole : published.entries.IsWhole)
    (hready : ∀ side, ready side w) (h : Writable comment) :
    RecordsWhole D view published comment now w := by
  obtain ⟨content, hcontent⟩ := (Entries.exists_toBytes?_iff published.entries now).mpr h
  obtain ⟨v, hfinalize, hstored, -⟩ := Session.finalize_reliable hD hready hcontent
  exact ⟨content, v, hfinalize, hstored, Entries.ofPayload_of_toBytes? hwhole hcontent⟩

theorem recordsNothing_of_not_writable (hD : D.Reliable view ready) (hready : ∀ side, ready side w)
    (h : ¬Writable comment) : RecordsNothing D view published comment now w := by
  have hnone : published.entries.toBytes? comment now = none :=
    Option.eq_none_iff_forall_ne_some.mpr fun content hcontent =>
      h ((Entries.exists_toBytes?_iff published.entries now).mp ⟨content, hcontent⟩)
  obtain ⟨u, hrelease, hview, hready'⟩ := hD.release (hready .remote)
  obtain ⟨v, hrelease', hview', -⟩ := hD.release (hready' .copy (by decide) (hready .copy))
  have hrecord : record D published comment now u = (.error .unencodable, u) := by
    simp only [record, hnone, Run.fail_apply]
  refine ⟨v, ?_, fun side name => (hview' side name).trans (hview side name)⟩
  -- the copy is released all the same, and the fault stays
  rw [finalize, if_pos rfl, Run.ensure_apply, Run.bind_of_ok hrelease, hrecord, hrelease']
  rfl

theorem RecordsWhole.fst (h : RecordsWhole D view published comment now w) :
    (finalize D true published comment now w).1 = .ok () := by
  obtain ⟨content, v, hfinalize, -⟩ := h
  rw [hfinalize]

theorem RecordsNothing.fst (h : RecordsNothing D view published comment now w) :
    (finalize D true published comment now w).1 = .error .unencodable := by
  obtain ⟨v, hfinalize, -⟩ := h
  rw [hfinalize]

theorem recordsWhole_iff (hD : D.Reliable view ready) (hwhole : published.entries.IsWhole)
    (hready : ∀ side, ready side w) :
    RecordsWhole D view published comment now w ↔ Writable comment := by
  refine ⟨fun h => ?_, recordsWhole_of_writable hD hwhole hready⟩
  by_contra hnot
  have hfst := h.fst.symm.trans (recordsNothing_of_not_writable hD hready hnot).fst
  cases hfst

/-- **A comment decides whether an update is recorded, by whether it is Latin-1, and nothing else.**
At places that do not fail the outcome is the same under two comments, at whatever times, exactly if
both are Latin-1 or none is. Both updates are recorded exactly if both comments are Latin-1, and
both are read again as the published entries. Under a comment that is not, the handover fails, and
nothing is stored. -/
theorem finalize_eq_iff_writable (hD : D.Reliable view ready) (hwhole : published.entries.IsWhole)
    (hready : ∀ side, ready side w) (hready' : ∀ side, ready side w') :
    (RecordsWhole D view published comment now w ∧ RecordsWhole D view published comment' now' w' ↔
      Writable comment ∧ Writable comment') ∧
    ((finalize D true published comment now w).1 = (finalize D true published comment' now' w').1 ↔
      (Writable comment ↔ Writable comment')) ∧
    (¬Writable comment → RecordsNothing D view published comment now w) := by
  refine ⟨and_congr (recordsWhole_iff hD hwhole hready) (recordsWhole_iff hD hwhole hready'), ?_,
    recordsNothing_of_not_writable hD hready⟩
  by_cases h : Writable comment
  · rw [(recordsWhole_of_writable hD hwhole hready h).fst]
    by_cases h' : Writable comment'
    · rw [(recordsWhole_of_writable hD hwhole hready' h').fst]
      exact iff_of_true rfl (iff_of_true h h')
    · rw [(recordsNothing_of_not_writable hD hready' h').fst]
      exact iff_of_false nofun fun hiff => h' (hiff.mp h)
  · rw [(recordsNothing_of_not_writable hD hready h).fst]
    by_cases h' : Writable comment'
    · rw [(recordsWhole_of_writable hD hwhole hready' h').fst]
      exact iff_of_false nofun fun hiff => h (hiff.mpr h')
    · rw [(recordsNothing_of_not_writable hD hready' h').fst]
      exact iff_of_true rfl (iff_of_false h h')

end

/-! ### A rehearsal -/

open Rehearsal

theorem isWhole_named : named.entries.IsWhole := by decide

/-- A comment that looks like an entry, with a line that goes on. -/
theorem finalize_eq_iff_writable_mirror :
    RecordsWhole depots holds named (some "mirror\r\nnexus.index.id=other\\") .earliest
    (renewed {}) ∧
      RecordsWhole depots holds named none .earliest (renewed {}) := by
  exact (finalize_eq_iff_writable reliable isWhole_named (fun _ => isUnscripted_renewed _)
    fun _ => isUnscripted_renewed _).1.mpr ⟨by decide, by decide⟩

/-- The settings of a mirror, under a label. -/
def labelled (comment : Text) : Value :=
  .record [(Settings.remoteKey, .text "remote"), (Settings.copyKey, .text "copy"),
    (Settings.commentKey, .text comment)]

/-- **A comment that settings accept keeps an update from being recorded**, which is recorded under
the default comment. -/
theorem unrecorded_under_comment :
    ∃ settings settings' : Settings,
      Settings.ofValue (labelled "Łódź mirror") = .ok settings ∧
      Settings.ofValue (labelled defaultComment) = .ok settings' ∧
      RecordsNothing depots holds named (some settings.comment) .earliest (renewed {}) ∧
      RecordsWhole depots holds named (some settings'.comment) .earliest (renewed {}) := by
  exact ⟨⟨"remote", some "copy", [], [], "Łódź mirror"⟩,
    ⟨"remote", some "copy", [], [], defaultComment⟩,
    rfl, rfl, recordsNothing_of_not_writable reliable (fun _ => isUnscripted_renewed _) (by decide),
    recordsWhole_of_writable reliable isWhole_named (fun _ => isUnscripted_renewed _) (by decide)⟩

end IndexChain.Handover
