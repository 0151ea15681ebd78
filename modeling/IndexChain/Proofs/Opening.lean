import IndexChain.Proofs.History
import IndexChain.Proofs.Plan
import IndexChain.Proofs.Succession

/-!
# Opening — what it comes to, and what it leaves behind

A session is opened between two texts, the published manifest and the copy's, of which the latter
may be missing. **Which session is opened, or why none is, follows from the two texts alone**
(`establish_outcome`), and `Opened` lists the outcomes in the order in which they are come upon: the
published text is looked at first, then the copy's, then whether they are of one index, and only
then when the index was published.

Opening reads and does nothing else. On every way out it has opened the published manifest, has
looked for the copy's unless the first one was refused, and has closed what it opened.

The places do not fail, and say so if something is not there (`Depots.Candid`). What the manifests
say has to be within what is ever read (`Manifest.IsLegible`); outside of that opening fails for
reasons of its own.
-/

namespace IndexChain

variable {σ : Type}

/-- Places that do not fail, and where a resource that is missing is reported as such. -/
structure Depots.Candid (D : Depots σ) (view : σ → Side → Text → Option Bytes)
    (ready : Side → σ → Prop) : Prop extends Depots.Reliable D view ready where
  missing : ∀ {side name w}, ready side w → view w side name = none →
    ∃ fault w', D.fetch side name w = (.error fault, w') ∧ fault.isNotFound = true

/-! ## 1. What is done to the places -/

/-- A manifest is opened, read to its end and closed. -/
def Act.reading (side : Side) (i : StreamId) (content : Bytes) : List Act :=
  [.fetched side Manifest.resourceName (.ok i), .read i (.ok content), .shut i (.ok ())]

/-- The copy's manifest is read, or is found to be missing, or nobody looks for it. -/
inductive Act.Looking : List Act → Prop
  | unasked : Looking []
  | missing (fault : Fault) : Looking [.fetched .copy Manifest.resourceName (.error fault)]
  | present (i : StreamId) (content : Bytes) : Looking (reading .copy i content)

namespace Session

/-- The manifest of a copy, by the copy's text. -/
def manifestOf? (copied : Option Bytes) : Except Fault (Option Manifest) :=
  copied.mapM fun content => Manifest.ofPayload (.bytes content)

section

variable {D : Depots σ} {view : σ → Side → Text → Option Bytes} {ready : Side → σ → Prop} {w : σ}

theorem reading_watched (hD : D.Reliable view ready) {side : Side} {content : Bytes}
    (hready : ready side w) (hcontent : view w side Manifest.resourceName = some content)
    (acts : List Act) :
    ∃ i u v, D.watched.fetch side Manifest.resourceName (w, acts) = (.ok i, u) ∧
      loadManifest D.watched i u =
        (Manifest.ofPayload (.bytes content), v, acts ++ Act.reading side i content) ∧
      Depots.Keeps view ready w v := by
  obtain ⟨i, w₁, w₂, w₃, hfetch, hread, hshut⟩ := hD.present hready hcontent
  have hkeeps : Depots.Keeps view ready w w₃ :=
    hD.keeps.trans _ _ _ ((hD.keeps.fetch _ _).of_eq hfetch)
      (hD.keeps.trans _ _ _ ((hD.keeps.read _ _).of_eq hread) ((hD.keeps.shut _).of_eq hshut))
  have hboth : D.watched.readAndShut i (w₁, acts ++ [.fetched side Manifest.resourceName (.ok i)]) =
      (.ok content, w₃, acts ++ Act.reading side i content) := by
    refine Run.ensure_eq_ok_iff.mpr ⟨_, Run.watched_of_eq hread _, ?_⟩
    refine (Run.watched_of_eq hshut _).trans ?_
    simp only [Act.reading, List.append_assoc, List.cons_append, List.nil_append]
  exact ⟨i, _, w₃, Run.watched_of_eq hfetch acts, loadManifest_of_read hboth, hkeeps⟩

theorem manifestOf?_some (text : Bytes) :
    manifestOf? (some text) = (Manifest.ofPayload (.bytes text)).map some := by
  cases hm : Manifest.ofPayload (.bytes text) <;> simp [manifestOf?, hm, Except.map]

/-- What a copy says about itself is what its text says. -/
theorem loadCopy_of_load {stream : StreamId} {text : Bytes} {u v : σ}
    (hfetch : D.fetch .copy Manifest.resourceName w = (.ok stream, u))
    (hload : loadManifest D stream u = (Manifest.ofPayload (.bytes text), v)) :
    loadCopy D w = (manifestOf? (some text), v) := by
  unfold loadCopy
  simp only [hfetch]
  rw [manifestOf?_some]
  cases hm : Manifest.ofPayload (.bytes text) with
  | error fault =>
    rw [hm] at hload
    exact Run.bind_of_error hload
  | ok m =>
    rw [hm] at hload
    exact Run.bind_of_ok hload

theorem looking_watched (hD : D.Candid view ready) {hasCopy : Bool}
    (hready : hasCopy = true → ready .copy w) (acts : List Act) :
    ∃ v looked, (if hasCopy then loadCopy D.watched else pure none) (w, acts) =
        (manifestOf? (if hasCopy then view w .copy Manifest.resourceName else none), v,
          acts ++ looked) ∧
      Act.Looking looked := by
  cases hasCopy with
  | false => exact ⟨w, [], by rw [List.append_nil]; rfl, .unasked⟩
  | true =>
    simp only [if_true]
    cases hcopied : view w .copy Manifest.resourceName with
    | none =>
      obtain ⟨fault, u, hfetch, hmissing⟩ := hD.missing (hready rfl) hcopied
      have hwatched : D.watched.fetch .copy Manifest.resourceName (w, acts) = _ :=
        Run.watched_of_eq hfetch acts
      exact ⟨_, _, loadCopy_eq_ok_iff.mpr (.missing hwatched hmissing), .missing fault⟩
    | some text =>
      obtain ⟨i, u, v, hfetch, hload, -⟩ := reading_watched hD.toReliable (hready rfl) hcopied acts
      exact ⟨v, _, loadCopy_of_load hfetch hload, .present i text⟩

end

/-! ## 2. What it comes to -/

/-- The two texts are of one index. -/
def SameId (copied published : Entries) : Prop :=
  ∃ id, copied.get? Manifest.indexIdKey = some id ∧ published.get? Manifest.indexIdKey = some id

/-- What the published text and the copy's lead to, the first thing that stands against a session
first. -/
inductive Opened (hasCopy : Bool) (comment : Option Text) (content : Bytes)
    (copied : Option Bytes) :
    Except Fault Session → Prop
  /-- The published text is malformed. -/
  | malformed {cause : Corruption} : Entries.ofPayload (.bytes content) = .error cause →
      Opened hasCopy comment content copied (.error (.corruptMetadata cause))
  /-- The copy's text is malformed. -/
  | copyMalformed {e : Entries} {text : Bytes} {cause : Corruption} :
      Entries.ofPayload (.bytes content) = .ok e →
      copied = some text → Entries.ofPayload (.bytes text) = .error cause →
      Opened hasCopy comment content copied (.error (.corruptMetadata cause))
  /-- The copy is not known to be of the published index. -/
  | otherIndex {e e' : Entries} {text : Bytes} :
      Entries.ofPayload (.bytes content) = .ok e →
      copied = some text → Entries.ofPayload (.bytes text) = .ok e' → ¬SameId e' e →
      Opened hasCopy comment content copied
        (.error (.identityMismatch (e'.get? Manifest.indexIdKey) (e.get? Manifest.indexIdKey)))
  /-- The time of publication is missing or cannot be read. -/
  | undated {e : Entries} :
      Entries.ofPayload (.bytes content) = .ok e →
      (∀ text, copied = some text → ∃ e', Entries.ofPayload (.bytes text) = .ok e' ∧ SameId e' e) →
      (¬∃ stamp m, e.get? Manifest.timestampKey = some stamp ∧ Moment.ofStamp stamp = .ok m) →
      Opened hasCopy comment content copied
        (.error (.corruptMetadata (.badTimestamp (e.get? Manifest.timestampKey))))
  /-- Nothing stands against a session. It has made the plan between what the two texts say. -/
  | opened {e : Entries} {stamp : Text} {s : Session} :
      Entries.ofPayload (.bytes content) = .ok e →
      (∀ text, copied = some text → ∃ e', Entries.ofPayload (.bytes text) = .ok e' ∧ SameId e' e) →
      e.get? Manifest.timestampKey = some stamp → Moment.ofStamp stamp = .ok s.publishedAt →
      Manifest.ofEntries e = .ok s.published → manifestOf? copied = .ok s.copy →
      Plan.decide s.copy s.published = .ok s.plan →
      s.IsFresh → s.hasCopy = hasCopy → s.comment = comment →
      Opened hasCopy comment content copied (.ok s)

section

variable {D : Depots σ} {hasCopy : Bool} {comment : Option Text} {content : Bytes}
    {copied : Option Bytes}
  {e : Entries} {published : Manifest} {copy : Option Manifest}

theorem sameIndex_iff {e' : Entries} {m' : Manifest} (hcopy : Manifest.ofEntries e' = .ok m')
    (hpublished : Manifest.ofEntries e = .ok published) :
    Plan.SameIndex m' published ↔ SameId e' e := by
  rw [Plan.SameIndex, SameId, Manifest.indexId_of_ofEntries hcopy,
    Manifest.indexId_of_ofEntries hpublished]

/-- The copy's manifest could be read, or there was nothing to read. -/
theorem manifestOf?_eq_ok_iff :
    manifestOf? copied = .ok copy ↔ (copied = none ∧ copy = none) ∨
      ∃ text m, copied = some text ∧ copy = some m ∧ Manifest.ofPayload (.bytes text) = .ok m := by
  cases copied with
  | none => simp [manifestOf?, pure, Except.pure, eq_comm]
  | some text =>
    rw [manifestOf?_some]
    cases hm : Manifest.ofPayload (.bytes text) <;> simp [hm, Except.map, eq_comm]

/-- Of a copy whose text is legible only the text can be at fault. -/
theorem exists_of_manifestOf?_error {fault : Fault}
    (hlegible : ∀ text e, copied = some text → Entries.ofPayload (.bytes text) = .ok e →
      Manifest.IsLegible e)
    (h : manifestOf? copied = .error fault) :
    ∃ text cause, copied = some text ∧ Entries.ofPayload (.bytes text) = .error cause ∧
      fault = .corruptMetadata cause := by
  cases copied with
  | none => cases h
  | some text =>
    rw [manifestOf?_some, Manifest.ofPayload] at h
    cases hentries : Entries.ofPayload (.bytes text) with
    | error cause =>
      rw [hentries] at h
      cases h
      exact ⟨text, cause, rfl, hentries, rfl⟩
    | ok e =>
      obtain ⟨m, hm⟩ := Manifest.exists_ofEntries_iff.mpr (hlegible text e rfl hentries)
      rw [hentries] at h
      simp only [hm] at h
      cases h

/-- Between two manifests that could be read it comes to whether there is a plan, and then to the
time of publication. -/
theorem opened_of_settle (hentries : Entries.ofPayload (.bytes content) = .ok e)
    (hpublished : Manifest.ofEntries e = .ok published) (hcopy : manifestOf? copied = .ok copy)
    (w : σ) :
    Opened hasCopy comment content copied (settle D hasCopy comment published copy w).1 := by
  have hstamp := (Manifest.ofEntries_eq_ok hpublished).2.2.1
  have hraw : published.rawTimestamp = e.get? Manifest.timestampKey := by
    rw [Manifest.rawTimestamp, Manifest.entries_of_ofEntries hpublished]
  -- what is left once the copy is known not to stand against a session
  have hplanned {plan : Plan} (hplan : Plan.decide copy published = .ok plan)
      (hids : ∀ text, copied = some text → ∃ e', Entries.ofPayload (.bytes text) = .ok e' ∧
        SameId e' e) :
      Opened hasCopy comment content copied (settle D hasCopy comment published copy w).1 := by
    unfold settle
    rw [hplan]
    cases hat : published.publishedAt with
    | none =>
      rw [hat] at hstamp
      rw [hraw]
      refine .undated hentries hids ?_
      rintro ⟨stamp, m, hget, hread⟩
      rw [Manifest.readStamp_eq_some_iff.mpr ⟨stamp, hget, hread⟩] at hstamp
      cases hstamp
    | some publishedAt =>
      rw [hat] at hstamp
      obtain ⟨stamp, hget, hread⟩ := Manifest.readStamp_eq_some_iff.mp hstamp
      exact .opened hentries hids hget hread hpublished hcopy hplan ⟨rfl, rfl, rfl⟩ rfl rfl
  rcases manifestOf?_eq_ok_iff.mp hcopy with ⟨rfl, rfl⟩ | ⟨text, m', rfl, rfl, hm'⟩
  · exact hplanned rfl nofun
  obtain ⟨hentries', hmanifest'⟩ := Manifest.ofPayload_eq_ok hm'
  have hiff := sameIndex_iff hmanifest' hpublished
  by_cases hsame : Plan.SameIndex m' published
  · have hwritable := Plan.writable_against hmanifest' hpublished
    refine hplanned (Plan.decide_of_writable hsame hwritable) fun _ htext => ?_
    cases htext
    exact ⟨m'.entries, hentries', hiff.mp hsame⟩
  · unfold settle
    rw [Plan.decide_of_not_sameIndex hsame, Manifest.indexId_of_ofEntries hmanifest',
      Manifest.indexId_of_ofEntries hpublished]
    exact .otherIndex hentries rfl hentries' (mt hiff.mpr hsame)

/-- Planning and looking at the time of publication is nothing that the places notice. -/
theorem settle_watched (hasCopy : Bool) (comment : Option Text) (published : Manifest)
    (copy : Option Manifest) (x : σ × List Act) :
    ∃ v, settle D.watched hasCopy comment published copy x =
      ((settle D hasCopy comment published copy x.1).1, v, x.2) := by
  unfold settle
  cases Plan.decide copy published with
  | error fault => exact ⟨_, rfl⟩
  | ok plan => cases published.publishedAt <;> exact ⟨_, rfl⟩

end

/-! ## 3. Opening -/

section

variable {D : Depots σ} {view : σ → Side → Text → Option Bytes} {ready : Side → σ → Prop} {w : σ}

/-- **What opening a session comes to follows from the two texts**, between places that do not fail:
it is refused if the published text is malformed, else if the copy's is, else if the two are not
known to be of one index, else if the time of publication is missing or cannot be read, and
otherwise there is a session with the plan between the two. In each case the published manifest was
opened, read and closed, and then the copy's, if it was looked for and is there. That is all that
was done: no chunk was opened, no place was released and nothing has changed. -/
theorem establish_outcome (hD : D.Candid view ready) (hremote : ready .remote w) {hasCopy : Bool}
    (hcopy : hasCopy = true → ready .copy w) {content : Bytes}
    (hcontent : view w .remote Manifest.resourceName = some content)
    (hlegible : ∀ text e, text = content ∨
      hasCopy = true ∧ view w .copy Manifest.resourceName = some text →
      Entries.ofPayload (.bytes text) = .ok e → Manifest.IsLegible e)
    (comment : Option Text) (acts : List Act) :
    ∃ outcome v i looked,
      establish D.watched hasCopy comment (w, acts) =
        (outcome, v, acts ++ (Act.reading .remote i content ++ looked)) ∧
      Act.Looking looked ∧ (∀ side name, view v side name = view w side name) ∧
      Opened hasCopy comment content (if hasCopy then view w .copy Manifest.resourceName else none)
        outcome := by
  have hview {o : Except Fault Session} {y : σ × List Act}
      (h : establish D.watched hasCopy comment (w, acts) = (o, y)) :
      ∀ side name, view y.1 side name = view w side name :=
    ((establish_within hD.keeps.watched hasCopy comment).of_eq h).1
  obtain ⟨i, u, v, hfetch, hload, hkeeps⟩ := reading_watched hD.toReliable hremote hcontent acts
  obtain ⟨v', looked, hlook, hlooking⟩ := looking_watched hD (fun h => hkeeps.2 .copy (hcopy h))
    (acts ++ Act.reading .remote i content)
  rw [hkeeps.1] at hlook
  have hestablish := establish_eq (D := D.watched) hasCopy comment (w, acts)
  rw [Run.bind_of_ok hfetch] at hestablish
  cases hentries : Entries.ofPayload (.bytes content) with
  | error cause =>
    have hm : Manifest.ofPayload (.bytes content) = .error (.corruptMetadata cause) := by
      simp only [Manifest.ofPayload, hentries]
    rw [hm] at hload
    rw [Run.bind_of_error hload] at hestablish
    exact ⟨_, v, i,
      [], by rw [hestablish, List.append_nil], .unasked, hview hestablish, .malformed hentries⟩
  | ok e =>
    obtain ⟨published, hpublished⟩ :=
      Manifest.exists_ofEntries_iff.mpr (hlegible content e (.inl rfl) hentries)
    have hm : Manifest.ofPayload (.bytes content) = .ok published := by
      simp only [Manifest.ofPayload, hentries, hpublished]
    rw [hm] at hload
    rw [Run.bind_of_ok hload] at hestablish
    have hlegible' : ∀ text e, (if hasCopy then view w .copy Manifest.resourceName
        else none) = some text →
        Entries.ofPayload (.bytes text) = .ok e → Manifest.IsLegible e := by
      intro text e htext
      cases hasCopy with
      | false => cases htext
      | true => exact hlegible text e (.inr ⟨rfl, htext⟩)
    generalize (if hasCopy then view w .copy Manifest.resourceName else none) =
      copied at hlook hlegible' ⊢
    cases hcopyManifest : manifestOf? copied with
    | error fault =>
      rw [hcopyManifest] at hlook
      rw [Run.bind_of_error hlook] at hestablish
      obtain ⟨text, cause, htext, hmalformed, rfl⟩ :=
        exists_of_manifestOf?_error hlegible' hcopyManifest
      exact ⟨_, v', i, looked, by rw [hestablish, List.append_assoc], hlooking, hview hestablish,
        .copyMalformed hentries htext hmalformed⟩
    | ok copy =>
      rw [hcopyManifest] at hlook
      rw [Run.bind_of_ok hlook] at hestablish
      obtain ⟨u', hsettle⟩ := settle_watched (D := D) hasCopy comment published copy
        (v', acts ++ Act.reading .remote i content ++ looked)
      rw [hsettle] at hestablish
      exact ⟨_, u', i, looked, by rw [hestablish, List.append_assoc], hlooking, hview hestablish,
        opened_of_settle hentries hpublished hcopyManifest _⟩

end

end Session

/-! ### A rehearsal -/

namespace Rehearsal

theorem candid : depots.Candid holds fun _ => IsUnscripted where
  toReliable := reliable
  missing := by
    intro side name r hr h
    refine ⟨.io .notFound name, r, ?_, rfl⟩
    show fetch side name r = _
    unfold holds at h
    simp only [fetch, hr.failOpen side, h, Pairs.get?]

/-- The manifest of another index, which says nothing else. -/
def foreign : Bytes := (Text.toLatin1? "nexus.index.id=releases").getD []

/-- The copy is of another index than the one that is published. -/
def estranged : Rehearsal :=
  renewed { publishing with copy := { resources := [(Manifest.resourceName, foreign)] } }

theorem isLegible_of_estranged {text : Bytes} {e : Entries}
    (htext : text = chained ∨ text = foreign) (hentries : Entries.ofPayload (.bytes text) = .ok e) :
    Manifest.IsLegible e := by
  have hread : ∀ text ∈ [chained, foreign], (Manifest.ofPayload (.bytes text)).toOption.isSome =
      true := by
    decide +kernel
  have hsome := hread text (by simpa using htext)
  refine Manifest.exists_ofEntries_iff.mp ?_
  rw [Manifest.ofPayload, hentries] at hsome
  cases hm : Manifest.ofEntries e with
  | error fault => simp [hm, Except.toOption] at hsome
  | ok m => exact ⟨m, rfl⟩

end Rehearsal

/-- The two indexes that are not one. -/
def Fault.indexes? : Fault → Option (Option Text × Option Text)
  | .identityMismatch copied offered => some (copied, offered)
  | _ => none

theorem Fault.eq_of_indexes? {fault : Fault} {copied offered : Option Text}
    (h : fault.indexes? = some (copied, offered)) : fault = .identityMismatch copied offered := by
  unfold indexes? at h
  split at h
  · cases h
    rfl
  · cases h

open Rehearsal in
/-- The two are not of one index, which both texts are read for. -/
theorem establish_outcome_estranged :
    ∃ r i j text,
      Session.establish depots.watched true none (estranged, []) =
        (.error (.identityMismatch (some (Text.ofString "releases"))
          (some (Text.ofString "central"))), r,
          Act.reading .remote i chained ++ Act.reading .copy j text) ∧
      ∀ side name, r.holds side name = estranged.holds side name := by
  have hcheck : (match (Session.establish depots.watched true none (estranged, [])).1 with
        | .error fault => fault.indexes?
        | .ok _ => none) = some (some (Text.ofString "releases"), some (Text.ofString "central")) ∧
      (Session.establish depots.watched true none (estranged, [])).2.2.length = 6 := by
    decide +kernel
  have hremote : estranged.holds .remote Manifest.resourceName = some chained := by
    simp [holds, estranged, publishing, renewed, place, Pairs.get?]
  have hcopy : estranged.holds .copy Manifest.resourceName = some foreign := by
    simp [holds, estranged, renewed, place, Pairs.get?]
  have hready : estranged.IsUnscripted := isUnscripted_renewed _
  have hlegible (text : Bytes) (e : Entries)
      (htext : text = chained ∨
        true = true ∧ estranged.holds .copy Manifest.resourceName = some text) :
      Entries.ofPayload (.bytes text) = .ok e → Manifest.IsLegible e :=
    isLegible_of_estranged (htext.imp_right fun h => Option.some.inj (h.2.symm.trans hcopy))
  obtain ⟨outcome, r, i, looked, hrun, hlooking, hholds, -⟩ :=
    Session.establish_outcome candid hready (fun _ => hready) hremote hlegible none []
  rw [hrun] at hcheck
  obtain ⟨hindexes, hlength⟩ := hcheck
  cases outcome with
  | ok session => cases hindexes
  | error fault =>
    obtain rfl := Fault.eq_of_indexes? hindexes
    cases hlooking with
    | present j text => exact ⟨r, i, j, text, hrun, hholds⟩
    | unasked => simp [Act.reading] at hlength
    | missing fault => simp [Act.reading] at hlength

end IndexChain
