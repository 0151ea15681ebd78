import IndexChain.Proofs.Wording

/-!
# Stamps — the time of publication in the manifest of a copy

When an index was published is only asked of the published manifest. The copy's manifest states a
time as well, and nothing should come of it.

A text that is no time counts as absent, in the copy as anywhere else. **Two copies that differ in
nothing but their stamps lead to the same session, or are refused alike, unless one stamp is in the
calendar and the other is not** (`establish_eq_iff_inCalendar`): a date outside of the calendar is
neither read nor passed over. It is come upon after the published manifest and the copy's markers
were read, and before anything is planned.
-/

namespace IndexChain

variable {σ : Type}

/-! ## 1. Manifests that differ in their stamps -/

/-- The entries say the same but for the time of publication, which one of them or both may lack. -/
def Entries.SameButStamp (e e' : Entries) : Prop :=
  ∀ key, key ≠ Manifest.timestampKey → e.get? key = e'.get? key

theorem Entries.SameButStamp.symm {e e' : Entries} (h : e.SameButStamp e') : e'.SameButStamp e :=
  fun key hkey => (h key hkey).symm

namespace Manifest

section

variable {e e' : Entries}

theorem timestampKey_ne_of_marker {key : Text} (h : key.beginsWith markerKeyStem = true) :
    key ≠ timestampKey := by
  rintro rfl
  exact absurd h (by decide)

theorem MarkersShort.of_sameButStamp (h : e.SameButStamp e') (hshort : MarkersShort e) :
    MarkersShort e' := by
  rintro ⟨key, value⟩ hp hkey
  have hget := Entries.mem_pairs_iff.mp hp
  rw [← h key (timestampKey_ne_of_marker hkey)] at hget
  exact hshort (key, value) (Entries.mem_pairs_iff.mpr hget) hkey

theorem markersShort_iff (h : e.SameButStamp e') : MarkersShort e ↔ MarkersShort e' :=
  ⟨.of_sameButStamp h, .of_sameButStamp h.symm⟩

theorem countsShort_iff (h : e.SameButStamp e') : CountsShort e ↔ CountsShort e' := by
  unfold CountsShort LastShort
  rw [markersShort_iff h, h lastIncrementalKey (by decide)]

theorem standsAlike_of_sameButStamp (h : e.SameButStamp e') : e.StandsAlike e' where
  indexId := h indexIdKey (by decide)
  chainId := h chainIdKey (by decide)
  counts n := by rw [Entries.Counts, Entries.Counts, h lastIncrementalKey (by decide)]

theorem ofEntries_of_not_markersShort (h : ¬MarkersShort e) :
    ofEntries e = .error (.invalidValue none) := by
  have hmade := made_ofEntries e
  generalize ofEntries e = outcome at hmade ⊢
  cases hmade with
  | overlongMarker => rfl
  | offCalendar hshort | overlongLast hshort | made hshort => exact absurd hshort h

theorem ofEntries_of_not_inCalendar (hshort : MarkersShort e) (h : ¬InCalendar e) :
    ofEntries e = .error .dateOverflow := by
  have hmade := made_ofEntries e
  generalize ofEntries e = outcome at hmade ⊢
  cases hmade with
  | overlongMarker hlong => exact absurd hshort hlong
  | offCalendar => rfl
  | overlongLast _ hin | made _ hin => exact absurd hin h

end

end Manifest

/-! ## 2. Opening between a published text and a copy's entries -/

namespace Session

/-- The session without what the copy said. -/
def withoutCopy (s : Session) : Session := { s with copy := none }

/-- What a published manifest and the copy's lead to. -/
def settled (hasCopy : Bool) (comment : Option Text) (published : Manifest)
    (copy : Option Manifest) :
    Except Fault Session := do
  let plan ← Plan.decide copy published
  match published.publishedAt with
  | none => .error (.corruptMetadata (.badTimestamp published.rawTimestamp))
  | some publishedAt => .ok ⟨published, publishedAt, copy, hasCopy, plan, comment, [], none, false⟩

/-- What a published text and the entries of a copy lead to. -/
def settledBetween (comment : Option Text) (content : Bytes) (copied : Entries) :
    Except Fault Session := do
  let published ← Manifest.ofPayload (.bytes content)
  let copy ← Manifest.ofEntries copied
  settled true comment published (some copy)

section

variable {D : Depots σ} {view : σ → Side → Text → Option Bytes} {ready : Side → σ → Prop}
  {comment : Option Text} {published : Manifest}

theorem settle_fst (hasCopy : Bool) (comment : Option Text) (published : Manifest)
    (copy : Option Manifest) (w : σ) :
    (settle D hasCopy comment published copy w).1 = settled hasCopy comment published copy := by
  unfold settle settled
  cases Plan.decide copy published with
  | error fault => rfl
  | ok plan => cases published.publishedAt <;> rfl

theorem establish_fst (hD : D.Reliable view ready) (comment : Option Text) {w : σ}
    {content text : Bytes} {copied : Entries} (hready : ∀ side, ready side w)
    (hcontent : view w .remote Manifest.resourceName = some content)
    (htext : view w .copy Manifest.resourceName = some text)
    (hcopied : Entries.ofPayload (.bytes text) = .ok copied) :
    (establish D true comment w).1 = settledBetween comment content copied := by
  obtain ⟨stream, u, v, hfetch, hload, hkeeps⟩ := load_reliable hD (hready .remote) hcontent
  obtain ⟨stream', u', v', hfetch', hload', -⟩ :=
    load_reliable hD (hkeeps.2 .copy (hready .copy)) ((hkeeps.1 _ _).trans htext)
  have hlook := loadCopy_of_load hfetch' hload'
  have hmanifest : manifestOf? (some text) = (Manifest.ofEntries copied).map some := by
    rw [manifestOf?_some, Manifest.ofPayload, hcopied]
  rw [hmanifest] at hlook
  rw [establish_eq, Run.bind_of_ok hfetch]
  unfold settledBetween
  cases hm : Manifest.ofPayload (.bytes content) with
  | error fault =>
    rw [hm] at hload
    rw [Run.bind_of_error hload]
    rfl
  | ok published =>
    rw [hm] at hload
    rw [Run.bind_of_ok hload]
    simp only [if_true]
    cases hm' : Manifest.ofEntries copied with
    | error fault =>
      rw [hm'] at hlook
      rw [Run.bind_of_error hlook]
      rfl
    | ok copy =>
      rw [hm'] at hlook
      rw [Run.bind_of_ok hlook, settle_fst]
      rfl

/-! ## 3. Two copies -/

theorem settled_ne_dateOverflow (copy : Option Manifest) :
    settled true comment published copy ≠ .error .dateOverflow := by
  unfold settled
  cases hplan : Plan.decide copy published with
  | error fault =>
    rintro ⟨⟩
    cases copy with
    | none => cases hplan
    | some m =>
      rcases Plan.decide_eq_error_iff.mp hplan with ⟨-, hfault⟩ | ⟨-, -, hfault⟩
      · cases hfault
      · cases hfault
  | ok plan =>
    cases published.publishedAt with
    | none => exact nofun
    | some publishedAt => exact nofun

theorem settled_congr {m m' : Manifest} (h : m.PlansAlike m') :
    (settled true comment published (some m)).map withoutCopy =
      (settled true comment published (some m')).map withoutCopy := by
  unfold settled
  rw [h.decide_eq]
  cases Plan.decide (some m') published with
  | error fault => rfl
  | ok plan => cases published.publishedAt <;> rfl

section

variable {content : Bytes} {e e' : Entries}

theorem settledBetween_of_ok (h : Manifest.ofPayload (.bytes content) = .ok published) :
    settledBetween comment content e =
      (Manifest.ofEntries e).bind fun copy => settled true comment published (some copy) := by
  unfold settledBetween
  rw [h]
  rfl

theorem settledBetween_eq_dateOverflow_iff (comment : Option Text)
    (h : Manifest.ofPayload (.bytes content) = .ok published)
    (hshort : Manifest.MarkersShort e) :
    settledBetween comment content e = .error .dateOverflow ↔ ¬Manifest.InCalendar e := by
  rw [settledBetween_of_ok h]
  constructor
  · intro heq hin
    have hmade := Manifest.made_ofEntries e
    generalize Manifest.ofEntries e = outcome at hmade heq
    cases hmade with
    | overlongMarker | overlongLast => cases heq
    | offCalendar _ hnot => exact hnot hin
    | made => exact settled_ne_dateOverflow _ heq
  · intro hnot
    rw [Manifest.ofEntries_of_not_inCalendar hshort hnot]
    rfl

/-- Copies with stamps in the calendar are told apart by nothing. -/
theorem settledBetween_congr (h : Manifest.ofPayload (.bytes content) = .ok published)
    (hsame : e.SameButStamp e') (hin : Manifest.InCalendar e) (hin' : Manifest.InCalendar e') :
    (settledBetween comment content e).map withoutCopy =
      (settledBetween comment content e').map withoutCopy := by
  rw [settledBetween_of_ok h, settledBetween_of_ok h]
  by_cases hshort : Manifest.CountsShort e
  · have hshort' := (Manifest.countsShort_iff hsame).mp hshort
    obtain ⟨m, hm⟩ := Manifest.exists_ofEntries_of_countsShort hin hshort
    obtain ⟨m', hm'⟩ := Manifest.exists_ofEntries_of_countsShort hin' hshort'
    rw [hm, hm']
    have hstands := Manifest.standsAlike_of_sameButStamp hsame
    exact settled_congr (Manifest.plansAlike_of_standsAlike hstands hm hm')
  · have hlong := mt (Manifest.countsShort_iff hsame).mpr hshort
    rw [Manifest.ofEntries_of_not_countsShort hin hshort,
      Manifest.ofEntries_of_not_countsShort hin' hlong]

theorem settledBetween_eq_iff (h : Manifest.ofPayload (.bytes content) = .ok published)
    (hsame : e.SameButStamp e') (hshort : Manifest.MarkersShort e) :
    (settledBetween comment content e).map withoutCopy =
    (settledBetween comment content e').map withoutCopy ↔
      (Manifest.InCalendar e ↔ Manifest.InCalendar e') := by
  have hoverflow := settledBetween_eq_dateOverflow_iff comment h hshort
  have hoverflow' := settledBetween_eq_dateOverflow_iff comment h
    ((Manifest.markersShort_iff hsame).mp hshort)
  constructor
  · intro heq
    rw [← not_iff_not, ← hoverflow, ← hoverflow', ← Run.map_eq_error_iff, heq,
      Run.map_eq_error_iff]
  · intro hiff
    by_cases hin : Manifest.InCalendar e
    · exact settledBetween_congr h hsame hin (hiff.mp hin)
    · rw [hoverflow.mpr hin, hoverflow'.mpr (mt hiff.mpr hin)]

end

/-- **The copy's stamp makes no difference, unless it is a date outside of the calendar.** The two
copies have the same entries but for the stamp, and are found next to the same publication. What
they lead to is the same, up to what the session remembers of its copy, exactly if the stamps are
both in the calendar or both outside of it, as far as it comes to the stamps at all. If it does, a
copy's stamp that is outside is what opening fails for, and nothing else fails in this way. -/
theorem establish_eq_iff_inCalendar (hD : D.Reliable view ready) (comment : Option Text) {w w' : σ}
    {content text text' : Bytes} {e e' : Entries}
    (hready : ∀ side, ready side w) (hready' : ∀ side, ready side w')
    (hcontent : view w .remote Manifest.resourceName = some content)
    (hcontent' : view w' .remote Manifest.resourceName = some content)
    (htext : view w .copy Manifest.resourceName = some text)
    (htext' : view w' .copy Manifest.resourceName = some text')
    (he : Entries.ofPayload (.bytes text) = .ok e) (he' : Entries.ofPayload (.bytes text') = .ok e')
    (hsame : e.SameButStamp e') :
    ((establish D true comment w).1.map withoutCopy =
      (establish D true comment w').1.map withoutCopy ↔
      ((∃ m, Manifest.ofPayload (.bytes content) = .ok m) → Manifest.MarkersShort e →
        (Manifest.InCalendar e ↔ Manifest.InCalendar e'))) ∧
    ((∃ m, Manifest.ofPayload (.bytes content) = .ok m) → Manifest.MarkersShort e →
      ((establish D true comment w).1 = .error .dateOverflow ↔ ¬Manifest.InCalendar e)) := by
  rw [establish_fst hD comment hready hcontent htext he,
    establish_fst hD comment hready' hcontent' htext' he']
  refine ⟨?_, fun ⟨m, hm⟩ hshort => settledBetween_eq_dateOverflow_iff comment hm hshort⟩
  cases hm : Manifest.ofPayload (.bytes content) with
  | error fault =>
    have hsettled (e : Entries) : settledBetween comment content e = .error fault := by
      unfold settledBetween
      rw [hm]
      rfl
    rw [hsettled, hsettled]
    exact iff_of_true rfl fun ⟨m, h⟩ => nomatch h
  | ok published =>
    by_cases hshort : Manifest.MarkersShort e
    · rw [settledBetween_eq_iff hm hsame hshort]
      exact ⟨fun h _ _ => h, fun h => h ⟨published, rfl⟩ hshort⟩
    · have hlong := mt (Manifest.markersShort_iff hsame).mpr hshort
      rw [settledBetween_of_ok hm, settledBetween_of_ok hm,
        Manifest.ofEntries_of_not_markersShort hshort, Manifest.ofEntries_of_not_markersShort hlong]
      exact iff_of_true rfl fun _ h => absurd h hshort

end

end Session

/-! ### A rehearsal -/

namespace Rehearsal

/-- The index is published, and there is a copy with some entries. -/
def copied (e : Entries) : Rehearsal :=
  renewed { publishing with
    copy := { resources := [(Manifest.resourceName, (e.toBytes? none .earliest).getD [])] } }

theorem isUnscripted_copied (e : Entries) : (copied e).IsUnscripted := isUnscripted_renewed _

theorem copied_holds (e : Entries) :
    (copied e).holds .remote Manifest.resourceName = some chained := by
  simp [holds, copied, publishing, renewed, place, Pairs.get?]

theorem exists_copied {e : Entries} (h : e.IsWhole) :
    ∃ text, (copied e).holds .copy Manifest.resourceName = some text ∧
      Entries.ofPayload (.bytes text) = .ok e := by
  have hbytes : ∃ text, e.toBytes? none .earliest = some text :=
    Entries.exists_toBytes? e .earliest (by simp)
  obtain ⟨text, htext⟩ := hbytes
  refine ⟨text, ?_, Entries.ofPayload_of_toBytes? h htext⟩
  simp [holds, copied, renewed, place, Pairs.get?, htext]

end Rehearsal

theorem Entries.sameButStamp_insert (e : Entries) (stamp : Text) :
    e.SameButStamp (e.insert Manifest.timestampKey stamp) := by
  intro key hkey
  rw [get?_insert, if_neg hkey.symm]

/-- A copy of the published index that says when it was published. -/
def Entries.stamped (stamp : Text) : Entries :=
  (Plan.stoppedAt "8").insert Manifest.timestampKey stamp

/-- The stamp names a moment outside of the calendar. -/
def Moment.isOffCalendar (stamp : Text) : Bool :=
  match ofStamp stamp with
  | .error .outOfRange => true
  | _ => false

theorem Manifest.inCalendar_stamped_iff {stamp : Text} :
    InCalendar (Entries.stamped stamp) ↔ Moment.isOffCalendar stamp = false := by
  unfold InCalendar Entries.stamped Moment.isOffCalendar
  rcases hstamp : Moment.ofStamp stamp with (_ | _) | _ <;> simp [hstamp]

theorem Manifest.markersShort_stamped (stamp : Text) : MarkersShort (Entries.stamped stamp) := by
  refine MarkersShort.of_sameButStamp (Entries.sameButStamp_insert _ _)
    (Plan.countsShort_stoppedAt ?_).1
  exact (Counter.isShort_iff_of_isNumeral ⟨by decide, by decide⟩).mpr (by decide)

theorem isWhole_stoppedAt : (Plan.stoppedAt "8").IsWhole := by decide

open Rehearsal in
/-- A time in words makes as little difference as none. -/
theorem establish_eq_iff_inCalendar_yesterday :
    (Session.establish depots true none (copied (Plan.stoppedAt "8"))).1.map Session.withoutCopy =
      (Session.establish depots true none (copied (Entries.stamped "yesterday"))).1.map
        Session.withoutCopy := by
  have hwhole : (Entries.stamped "yesterday").IsWhole := by decide
  obtain ⟨text, htext, he⟩ := exists_copied isWhole_stoppedAt
  obtain ⟨text', htext', he'⟩ := exists_copied hwhole
  refine (Session.establish_eq_iff_inCalendar reliable none (fun _ => isUnscripted_copied _)
    (fun _ => isUnscripted_copied _) (copied_holds _) (copied_holds _) htext htext' he he'
    (Entries.sameButStamp_insert _ _)).1.mpr fun _ _ => ?_
  exact iff_of_true (Plan.inCalendar_stoppedAt _)
    (Manifest.inCalendar_stamped_iff.mpr (by decide +kernel))

open Rehearsal in
/-- **A stamp makes a difference.** One copy has none, the other has one that names an hour before
the calendar begins. -/
theorem apart_of_stamp :
    (Plan.stoppedAt "8").SameButStamp (Entries.stamped "00010101000000.000 +0100") ∧
    (∃ s, (Session.establish depots true none (copied (Plan.stoppedAt "8"))).1 = .ok s) ∧
    (Session.establish depots true none (copied (Entries.stamped "00010101000000.000 +0100"))).1 =
      .error .dateOverflow := by
  have hopened :
      (Session.settledBetween none chained (Plan.stoppedAt "8")).toOption.isSome = true := by
    decide +kernel
  have hwhole : (Entries.stamped "00010101000000.000 +0100").IsWhole := by decide
  obtain ⟨text, htext, he⟩ := exists_copied isWhole_stoppedAt
  obtain ⟨text', htext', he'⟩ := exists_copied hwhole
  rw [Session.establish_fst reliable none (fun _ => isUnscripted_copied _)
    (copied_holds _) htext he, Session.establish_fst reliable none (fun _ => isUnscripted_copied _)
    (copied_holds _) htext' he']
  refine ⟨Entries.sameButStamp_insert _ _, ?_, ?_⟩
  · cases hs : Session.settledBetween none chained (Plan.stoppedAt "8") with
    | error fault => simp [hs, Except.toOption] at hopened
    | ok s => exact ⟨s, rfl⟩
  · cases hm : Manifest.ofPayload (.bytes chained) with
    | error fault =>
      unfold Session.settledBetween at hopened
      rw [hm] at hopened
      cases hopened
    | ok published =>
      rw [Session.settledBetween_eq_dateOverflow_iff none hm (Manifest.markersShort_stamped _),
        Manifest.inCalendar_stamped_iff]
      decide +kernel

end IndexChain
