import IndexChain.Proofs.Fetching
import IndexChain.Proofs.Manifest

/-!
# Synchronisations — what is in the files afterwards

A synchronisation that succeeds is followed from one end to the other: the places are opened, the
session is, every planned chunk is fetched, and the update is recorded. Which files each part stores
is known from `Workspace.Stores`, and the two locations denote different folders, so **a file that
is read is never one that was written** (`Fetched.copies`).
-/

namespace IndexChain

open Workspace (Writes Stores Still LooksWithin depots stayWithin looksWithin_still)

namespace Command

/-! ## 1. Copies -/

/-- The files of some names in a folder hold what those of another folder held before. -/
def Copies (R L : Location) (names : List Text) (before w : Workspace) : Prop :=
  ∀ name ∈ names, ∃ content, before.file? (before.spotIn R name) = some content ∧
    w.file? (before.spotIn L name) = some content

/-- What arrives in a folder of its own is copied byte for byte. -/
theorem Fetched.copies {R L : Location} {done tried : List Text} {w w' : Workspace}
    (h : Fetched R L done tried w w') (hplain : ∀ name ∈ done, name.IsPlain)
    (hne : R.folder w.disk.workplace ≠ L.folder w.disk.workplace) : Copies R L done w w' := by
  intro name hname
  obtain ⟨content, hremote, hlocal⟩ := h.arrived name hname
  have hslash := (hplain name hname).noSlash
  have hother : w.spotIn R name ≠ w.spotIn L name := Folder.spot_ne hne hslash hslash
  rw [arriving, if_neg hother] at hlocal
  exact ⟨content, hremote, hlocal⟩

/-! ## 2. Opening -/

section Opening

variable {homes : DiskPath.Homes} {settings : Settings} {R L : Location} {w w' : Workspace}

section Within

variable {Q : Workspace → Workspace → Prop}

theorem openCopy_within (hQ : LooksWithin Q) (homes : DiskPath.Homes) (settings : Settings) :
    Run.Within Q (settings.openCopy homes) := by
  refine .bind hQ.trans (.ofExcept hQ.refl _) fun location => ?_
  cases location with
  | none => exact hQ.refl
  | some l => exact .bind hQ.trans (hQ.openHandle l) fun _ => .pure hQ.refl _

/-- Opening a session only looks, whether there is one then or not. -/
theorem openSession_within (hQ : LooksWithin Q) (homes : DiskPath.Homes) (settings : Settings) :
    Run.Within Q (settings.openSession homes) := by
  have hopenAt : Run.Within Q (Settings.openAt settings.remoteLocation) :=
    .bind hQ.trans (.ofExcept hQ.refl _) hQ.openHandle
  refine .bind hQ.trans hopenAt fun remote => ?_
  refine .bind hQ.trans (openCopy_within hQ homes settings) fun copy => ?_
  refine .bind hQ.trans ?_ fun session => .pure hQ.refl _
  refine .recover hQ.trans ?_ fun fault => ?_
  · exact Session.establish_within (hQ.session remote copy) copy.isSome (some settings.comment)
  · have hrelease := Session.release_within hQ.refl hQ.trans (hQ.release remote copy) copy.isSome
    exact .bind hQ.trans hrelease fun _ => hQ.refl

/-- Closing a session only looks. -/
theorem close_within (hQ : LooksWithin Q) (remote : HandleId) (copy : Option HandleId) (s : Session)
    (w : Workspace) : Q w (Session.close (depots remote copy) (s, w)).2.2 := by
  cases hs : s.closed with
  | true =>
    simp only [Session.close, hs, if_true]
    exact hQ.refl w
  | false =>
    rw [Session.close_eq hs]
    exact Run.Within.ensure hQ.trans
      (Delivery.shutCurrent_within (hQ.session remote copy) s.liveDelivery)
      (Session.release_within hQ.refl hQ.trans (hQ.release remote copy) s.hasCopy) w

end Within

theorem openAt_eq_ok {remote : HandleId} (h : Settings.openAt (.ok R) w = (.ok remote, w')) :
    w'.locationOf? remote = some R ∧ Still w w' := by
  obtain ⟨_, u, hlocation, hopen⟩ := Run.bind_eq_ok_iff.mp h
  cases hlocation
  exact ⟨Workspace.openHandle_eq_ok hopen, (looksWithin_still.openHandle R).of_eq hopen⟩

theorem openCopy_eq_ok {copy : Option HandleId} (hL : settings.copyLocation homes = .ok (some L))
    (h : settings.openCopy homes w = (.ok copy, w')) :
    ∃ target, copy = some target ∧ w'.locationOf? target = some L ∧ Still w w' := by
  obtain ⟨_, u, hlocation, h⟩ := Run.bind_eq_ok_iff.mp h
  rw [hL] at hlocation
  cases hlocation
  obtain ⟨target, v, hopen, h⟩ := Run.bind_eq_ok_iff.mp h
  cases h
  exact ⟨target, rfl, Workspace.openHandle_eq_ok hopen,
    (looksWithin_still.openHandle L).of_eq hopen⟩

/-- **A session is opened between the places that the settings name.** -/
theorem openSession_eq_ok {opened : Opened} (hR : settings.remoteLocation = .ok R)
    (hL : settings.copyLocation homes = .ok (some L))
    (h : settings.openSession homes w = (.ok opened, w')) :
    ∃ copy u, opened.copy = some copy ∧ u.locationOf? opened.remote = some R ∧
      u.locationOf? copy = some L ∧ Still w u ∧
      Session.Established (depots opened.remote (some copy)) true (some settings.comment) u
        opened.session w' := by
  obtain ⟨remote, u, hremote, h⟩ := Run.bind_eq_ok_iff.mp h
  rw [hR] at hremote
  obtain ⟨hremote, hstill⟩ := openAt_eq_ok hremote
  obtain ⟨copy, v, hcopy, h⟩ := Run.bind_eq_ok_iff.mp h
  obtain ⟨target, rfl, htarget, hstill'⟩ := openCopy_eq_ok hL hcopy
  obtain ⟨session, _, hestablish, h⟩ := Run.bind_eq_ok_iff.mp h
  cases h
  refine ⟨target, v, rfl, hstill'.locationOf? _ _ hremote, htarget, hstill.trans _ _ _ hstill', ?_⟩
  -- a session that was not opened is not made up for
  refine Session.establish_eq_ok_iff.mp (Run.eq_ok_of_recover ?_ hestablish)
  intro fault u b v hanswer
  obtain ⟨_, _, _, hfail⟩ := Run.bind_eq_ok_iff.mp hanswer
  cases hfail

/-- What is open when a synchronisation asks for its first chunk: `u` is the workspace with the
    handles, `w'` the one in which both manifests were read, too. -/
structure Ready (settings : Settings) (R L : Location) (opened : Opened) (copy target : HandleId)
    (w u w' : Workspace) : Prop where
  copy_eq : opened.copy = some copy
  remote : u.locationOf? opened.remote = some R
  recording : u.locationOf? copy = some L
  storing : u.locationOf? target = some L
  established : Session.Established (depots opened.remote (some copy)) true
    (some settings.comment) u
    opened.session w'
  before : Still w u
  reading : Still u w'

theorem exists_ready {opened : Opened} {target : HandleId} {v : Workspace}
    (hR : settings.remoteLocation = .ok R) (hL : settings.copyLocation homes = .ok (some L))
    (hcopy : settings.openCopy homes w = (.ok (some target), v))
    (hsession : settings.openSession homes v = (.ok opened, w')) :
    ∃ copy u, Ready settings R L opened copy target w u w' := by
  obtain ⟨_, htarget, hstoring, hopened⟩ := openCopy_eq_ok hL hcopy
  cases htarget
  obtain ⟨copy, u, hsome, hremote, hrecording, hopened', hestablished⟩ :=
    openSession_eq_ok hR hL hsession
  refine ⟨copy, u, hsome, hremote, hrecording, hopened'.locationOf? _ _ hstoring, hestablished,
    hopened.trans _ _ _ hopened', ?_⟩
  exact (Session.establish_within (Workspace.stayWithin_still _ _) _ _).of_eq
    (Session.establish_eq_ok_iff.mpr hestablished)

/-- A pass that succeeds has fetched every chunk, and the copy can still be stored in. -/
theorem Ready.fetches_all {opened : Opened} {copy target : HandleId}
    {u copied : Workspace} {s : Session} {out : List Unit}
    (h : Ready settings R L opened copy target w u w')
    (hconsume : Session.consumeAll (depots opened.remote (some copy))
      (fun _ chunk => Session.onDepots (copyChunk (depots opened.remote (some copy)) target chunk))
      (opened.session, w') = (.ok out, s, copied)) :
    ∃ d, s = opened.session.passing d ∧
      Fetched R L opened.session.plan.chunkNames opened.session.plan.chunkNames w copied ∧
      copied.locationOf? copy = some L := by
  obtain ⟨d, hs, hfetched⟩ := consumeAll_fetches_all h.established.isFresh
    (h.reading.locationOf? _ _ h.remote) (h.reading.locationOf? _ _ h.storing) hconsume
  exact ⟨d, hs, hfetched.of_still (h.before.trans _ _ _ h.reading),
    hfetched.writes.locationOf? _ _ (h.reading.locationOf? _ _ h.recording)⟩

/-- A manifest that is opened and loaded is that of the handle's folder. -/
theorem manifest_of_load {h remote : HandleId} {copy : Option HandleId} {u : Workspace}
    {stream : StreamId} {m : Manifest} (hL : w.locationOf? h = some L)
    (hfetch : Workspace.fetch h Manifest.resourceName w = (.ok stream, u))
    (hload : Session.loadManifest (depots remote copy) stream u = (.ok m, w')) :
    ∃ content, w.file? (w.spotIn L Manifest.resourceName) = some content ∧
      Manifest.ofPayload (.bytes content) = .ok m := by
  obtain ⟨content, stream', hcontent, hstream, hopens⟩ :=
    Workspace.fetch_eq_ok isPlain_resourceName hL hfetch
  obtain ⟨bytes, hread, hmanifest⟩ := Session.loadManifest_eq_ok_iff.mp hload
  obtain ⟨_, hread, -⟩ := Run.ensure_eq_ok_iff.mp hread
  have hstay := (Workspace.fetch_within (fun _ => False) h Manifest.resourceName).of_eq hfetch
  -- between opening and reading no file changed
  have hbytes := Workspace.read_eq_ok hstream hopens ((hstay.file? _ id).trans hcontent) hread
  rw [Workspace.yields_self] at hbytes
  exact ⟨content, hcontent, hbytes ▸ hmanifest⟩

/-- What a session says was published is what the remote manifest says. -/
theorem published_of_established {remote : HandleId} {copy : Option HandleId} {hasCopy : Bool}
    {comment : Option Text} {s : Session} (hR : w.locationOf? remote = some R)
    (h : Session.Established (depots remote copy) hasCopy comment w s w') :
    ∃ content, w.file? (w.spotIn R Manifest.resourceName) = some content ∧
      Manifest.ofPayload (.bytes content) = .ok s.published := by
  obtain ⟨stream, u, v, _, hfetch, hload, -⟩ := h.reads
  exact manifest_of_load hR hfetch hload

end Opening

/-! ## 3. Recording -/

section Recording

variable {remote target : HandleId} {L : Location} {w w' : Workspace}

/-- **The update is recorded in the copy's manifest**, and nothing else is stored. -/
theorem record_eq_ok {published : Manifest} {comment : Option Text} {now : Moment}
    (hL : w.locationOf? target = some L)
    (h : Handover.record (depots remote (some target)) published comment now w = (.ok (), w')) :
    ∃ stored, published.entries.toBytes? comment now = some stored ∧
      Stores L [Manifest.resourceName] w w' ∧
      w'.file? (w.spotIn L Manifest.resourceName) = some stored := by
  unfold Handover.record at h
  cases hstored : published.entries.toBytes? comment now with
  | none =>
    rw [hstored] at h
    cases h
  | some stored =>
    rw [hstored] at h
    obtain ⟨_, u, hsave, hlog⟩ := Run.bind_eq_ok_iff.mp h
    obtain ⟨u₁, u₂, bytes, hbegun, -, -, hdone, rfl⟩ :=
      Workspace.save_eq_ok isPlain_resourceName hL hsave
    cases hdone
    have hroot := Workspace.spotIn_ne_root w L Manifest.resourceName
    have hlogged := ((stayWithin (fun _ => False) remote (some target)).log (by decide)).of_eq hlog
    refine ⟨stored, rfl, ?_, ?_⟩
    · apply Stores.of_eq_spot
      have hall := (hbegun.append (Workspace.put_writes hroot stored)).append
        (hlogged.mono fun _ => False.elim)
      simpa only [List.append_nil] using hall
    · rw [hlogged.file? _ id, Workspace.file?_put_self hroot]

theorem finish_eq_ok {s t : Session} {d : Delivery} {now : Moment} (hs : s.IsFresh)
    (hcopy : s.hasCopy = true) (hL : w.locationOf? target = some L)
    (h : Session.finish (depots remote (some target)) now (s.passing d, w) = (.ok (), t, w')) :
    ∃ stored, s.published.entries.toBytes? s.comment now = some stored ∧
      Stores L [Manifest.resourceName] w w' ∧
      w'.file? (w.spotIn L Manifest.resourceName) = some stored := by
  obtain ⟨u, hshut, hfinalize⟩ := Session.finalize_of_finish_passing hs h
  rw [Handover.finalize, hcopy, if_pos rfl] at hfinalize
  obtain ⟨v, hrecorded, hcopyReleased⟩ := Run.ensure_eq_ok_iff.mp hfinalize
  obtain ⟨_, v₁, hreleased, hrecord⟩ := Run.bind_eq_ok_iff.mp hrecorded
  have hbefore : Writes (fun _ => False) [] w v₁ :=
    ((Delivery.shutCurrent_within (stayWithin _ remote (some target)) d).of_eq hshut).trans _ _ _
      ((Workspace.release_within _ remote (some target) .remote).of_eq hreleased)
  have hafter : Writes (fun _ => False) [] v w' :=
    (Workspace.release_within _ remote (some target) .copy).of_eq hcopyReleased
  obtain ⟨stored, hstored, hstores, hcontent⟩ := record_eq_ok (hbefore.locationOf? _ _ hL) hrecord
  rw [hbefore.spotIn] at hcontent
  refine ⟨stored, hstored, ?_, (hafter.file? _ id).trans hcontent⟩
  exact ((Stores.of_stay hbefore).append hstores).append (Stores.of_stay hafter)

end Recording

/-! ## 4. Synchronisations -/

/-- What a synchronisation that succeeded has done: `before` is the workspace at its start, `copied`
    the one after the last chunk, `after` the one at its end. -/
structure Synced (R L : Location) (s : Session) (before copied after : Workspace) : Prop where
  /-- The chunks of the plan are in the copy, byte for byte. -/
  chunks : Copies R L s.plan.chunkNames before after
  /-- The copy's manifest reads like the published one. -/
  manifest : ∃ content stored, before.file? (before.spotIn R Manifest.resourceName) = some content ∧
    after.file? (before.spotIn L Manifest.resourceName) = some stored ∧
    Manifest.ofPayload (.bytes content) = .ok s.published ∧
    Entries.ofPayload (.bytes content) = .ok s.published.entries ∧
    Entries.ofPayload (.bytes stored) = .ok s.published.entries
  /-- All other files are as they were, -/
  others : ∀ spot, (∀ name ∈ s.plan.chunkNames ++ [Manifest.resourceName],
    spot ≠ before.spotIn L name) → after.file? spot = before.file? spot
  /-- and so are the files of the remote folder. -/
  remote : ∀ name, DiskPath.slash ∉ name →
    after.file? (before.spotIn R name) = before.file? (before.spotIn R name)
  /-- The chunks were stored one after the other, and the manifest last, -/
  order : after.storedPaths =
    before.storedPaths ++ L.pathsBelow (s.plan.chunkNames ++ [Manifest.resourceName])
  /-- when all chunks had been copied -/
  complete : Copies R L s.plan.chunkNames before copied
  /-- and nothing had been recorded. -/
  unrecorded : copied.file? (before.spotIn L Manifest.resourceName) =
    before.file? (before.spotIn L Manifest.resourceName)
  /-- Then nothing else was changed any more. -/
  last : ∀ spot, spot ≠ before.spotIn L Manifest.resourceName → after.file? spot = copied.file? spot

/-- The parts of a synchronisation that succeeded, one after the other. -/
inductive SyncRun (homes : DiskPath.Homes) (settings : Settings) (now : Moment) (w : Workspace) :
    Opened → Workspace → Workspace → Prop
  | done {target : HandleId} {opened : Opened} {out : List Unit} {s t : Session}
      {w₁ w₂ copied w₃ : Workspace} :
      settings.openCopy homes w = (.ok (some target), w₁) →
      settings.openSession homes w₁ = (.ok opened, w₂) →
      Session.consumeAll (depots opened.remote opened.copy)
        (fun _ chunk => Session.onDepots
          (copyChunk (depots opened.remote opened.copy) target chunk))
        (opened.session, w₂) = (.ok out, s, copied) →
      Session.finish (depots opened.remote opened.copy) now (s, copied) = (.ok (), t, w₃) →
      SyncRun homes settings now w opened copied
        (Workspace.print (summary t) (Workspace.closeHandle target w₃).2).2

theorem report_still (fault : Fault) : Run.Within Still (report fault) := fun _ =>
  ⟨.of_eq rfl rfl rfl rfl, rfl⟩

theorem failed_still (fault : Fault) (w : Workspace) : Still w (failed fault w).2 := by
  unfold failed
  split
  · exact report_still fault w
  · exact .refl w

theorem failed_ne_done (fault : Fault) (w : Workspace) : (failed fault w).1 ≠ .done := by
  unfold failed
  split <;> simp

section Sync

variable {homes : DiskPath.Homes} {request : Request} {settings : Settings} {now : Moment}
  {w copied w' : Workspace} {opened : Opened} {R L : Location}

/-- The ways in which a synchronisation ends, by the parts that it went through. -/
inductive SyncEnd (homes : DiskPath.Homes) (request : Request) (now : Moment) (w : Workspace) :
    Outcome → Workspace → Prop
  | unset {refusal : Refusal} (hsettings : request.settings w.disk = .error refusal) :
      SyncEnd homes request now w (.refused refusal) w
  | misplaced {settings : Settings} {fault : Fault} {w₁ : Workspace}
      (hsettings : request.settings w.disk = .ok settings)
      (hcopy : settings.openCopy homes w = (.error fault, w₁)) :
      SyncEnd homes request now w (.refused (.fault fault)) w₁
  | uncopied {settings : Settings} {w₁ : Workspace}
      (hsettings : request.settings w.disk = .ok settings)
      (hcopy : settings.openCopy homes w = (.ok none, w₁)) :
      SyncEnd homes request now w (.refused (.misuse .missingCopy)) w₁
  | unopened {settings : Settings} {target : HandleId} {fault : Fault} {w₁ w₂ w' : Workspace}
      {outcome : Outcome} (hsettings : request.settings w.disk = .ok settings)
      (hcopy : settings.openCopy homes w = (.ok (some target), w₁))
      (hsession : settings.openSession homes w₁ = (.error fault, w₂)) (hfailed : outcome ≠ .done)
      (hleft : Still w₂ w') : SyncEnd homes request now w outcome w'
  | failed {settings : Settings} {target : HandleId} {opened : Opened} {t : Session} {fault : Fault}
      {w₁ w₂ w₃ w' : Workspace} {outcome : Outcome}
      (hsettings : request.settings w.disk = .ok settings)
      (hcopy : settings.openCopy homes w = (.ok (some target), w₁))
      (hsession : settings.openSession homes w₁ = (.ok opened, w₂))
      (hall : copyAll (depots opened.remote opened.copy) target now (opened.session, w₂) =
        (.error fault, t, w₃)) (hfailed : outcome ≠ .done) (hleft : Still w₃ w') :
      SyncEnd homes request now w outcome w'
  | done {settings : Settings} {target : HandleId} {opened : Opened} {t : Session}
      {w₁ w₂ w₃ : Workspace} (hsettings : request.settings w.disk = .ok settings)
      (hcopy : settings.openCopy homes w = (.ok (some target), w₁))
      (hsession : settings.openSession homes w₁ = (.ok opened, w₂))
      (hall : copyAll (depots opened.remote opened.copy) target now (opened.session, w₂) =
        (.ok (), t, w₃)) :
      SyncEnd homes request now w .done
        (Workspace.print (summary t) (Workspace.closeHandle target w₃).2).2

theorem syncEnd (homes : DiskPath.Homes) (request : Request) (now : Moment) (w : Workspace) :
    SyncEnd homes request now w (runSync homes request now w).1
    (runSync homes request now w).2 := by
  have hleave (target : HandleId) {u v : Workspace} (h : Still u v) :
      Still u (Workspace.closeHandle target v).2 :=
    h.trans _ _ _ (Workspace.closeHandle_still target v)
  unfold runSync
  cases hsettings : request.settings w.disk with
  | error refusal => exact .unset hsettings
  | ok settings =>
    simp only
    rcases hcopy : settings.openCopy homes w with ⟨fault | _ | target, w₁⟩
    · exact .misplaced hsettings hcopy
    · exact .uncopied hsettings hcopy
    simp only
    rcases hsession : settings.openSession homes w₁ with ⟨fault | opened, w₂⟩
    · simp only
      split
      · exact .unopened hsettings hcopy hsession (failed_ne_done fault w₂)
          (hleave target (failed_still fault w₂))
      · exact .unopened hsettings hcopy hsession nofun (.refl w₂)
    simp only
    rcases hall : copyAll (depots opened.remote opened.copy) target now (opened.session, w₂) with
      ⟨fault | ⟨⟩, t, w₃⟩
    · simp only
      split
      · exact .failed hsettings hcopy hsession hall nofun (hleave target (report_still fault w₃))
      · exact .failed hsettings hcopy hsession hall nofun (hleave target (.refl w₃))
    · exact .done hsettings hcopy hsession hall

/-- A synchronisation that succeeded went through all its parts. -/
theorem syncRun_of_done (hsettings : request.settings w.disk = .ok settings)
    (h : runSync homes request now w = (.done, w')) :
    ∃ opened copied, SyncRun homes settings now w opened copied w' := by
  have hend := syncEnd homes request now w
  rw [h] at hend
  cases hend with
  | unopened _ _ _ hfailed => exact absurd rfl hfailed
  | failed _ _ _ _ hfailed => exact absurd rfl hfailed
  | done hsettings' hcopy hsession hall =>
    obtain rfl := Except.ok.inj (hsettings.symm.trans hsettings')
    obtain ⟨⟨s, copied⟩, hbody, hfinish⟩ := Session.during_eq_ok_iff.mp hall
    obtain ⟨out, _, hconsume, hbody⟩ := Run.bind_eq_ok_iff.mp hbody
    cases hbody
    exact ⟨_, copied, .done hcopy hsession hconsume hfinish⟩

/-- All that is stored has a plain name. -/
theorem isPlain_of_mem_stored {plan : Plan} {name : Text}
    (h : name ∈ plan.chunkNames ++ [Manifest.resourceName]) : name.IsPlain := by
  rcases List.mem_append.mp h with h | h
  · exact isPlain_of_mem_chunkNames h
  · exact List.mem_singleton.mp h ▸ isPlain_resourceName

/-- What the two halves of a synchronisation come to: the chunks first, the manifest last. -/
theorem Synced.of_halves {s : Session} {content stored : Bytes}
    (hne : R.folder w.disk.workplace ≠ L.folder w.disk.workplace)
    (hcomplete : Copies R L s.plan.chunkNames w copied)
    (hchunks : Stores L s.plan.chunkNames w copied)
    (hlast : Stores L [Manifest.resourceName] copied w')
    (hcontent : w.file? (w.spotIn R Manifest.resourceName) = some content)
    (hstored : w'.file? (w.spotIn L Manifest.resourceName) = some stored)
    (hpublished : Manifest.ofPayload (.bytes content) = .ok s.published)
    (hrecorded : Entries.ofPayload (.bytes stored) = .ok s.published.entries) :
    Synced R L s w copied w' := by
  have hall : Stores L (s.plan.chunkNames ++ [Manifest.resourceName]) w w' := hchunks.append hlast
  have hnot := resourceName_not_mem_chunkNames s.plan
  refine ⟨?_, ?_, ?_, ?_, hall.storedPaths, hcomplete, file?_of_stores hchunks hnot, ?_⟩
  · intro name hname
    obtain ⟨bytes, hremote, hlocal⟩ := hcomplete name hname
    refine ⟨bytes, hremote, ?_⟩
    rw [← hchunks.spotIn] at hlocal ⊢
    rw [file?_of_stores hlast, hlocal]
    exact fun h => hnot (List.mem_singleton.mp h ▸ hname)
  · exact ⟨content, stored, hcontent, hstored, hpublished, (Manifest.ofPayload_eq_ok hpublished).1,
      hrecorded⟩
  · intro spot hspot
    apply hall.file?
    rintro ⟨name, hname, heq⟩
    exact hspot name hname heq
  · intro name hname
    apply hall.file?
    rintro ⟨other, hother, heq⟩
    exact Folder.spot_ne hne hname (isPlain_of_mem_stored hother).noSlash heq
  · intro spot hspot
    apply hlast.file?
    rintro ⟨name, hname, rfl⟩
    rw [List.mem_singleton.mp hname, hchunks.spotIn] at hspot
    exact hspot rfl

/-- The parts of a run, and that no file changes after the end of its session. -/
theorem SyncRun.exists_parts (hR : settings.remoteLocation = .ok R)
    (hL : settings.copyLocation homes = .ok (some L))
    (h : SyncRun homes settings now w opened copied w') :
    ∃ copy target u w₂ w₃ out s t, Ready settings R L opened copy target w u w₂ ∧
      Session.consumeAll (depots opened.remote (some copy))
        (fun _ chunk => Session.onDepots
          (copyChunk (depots opened.remote (some copy)) target chunk))
        (opened.session, w₂) = (.ok out, s, copied) ∧
      Session.finish (depots opened.remote (some copy)) now (s, copied) = (.ok (), t, w₃) ∧
      Writes (fun _ => False) [] w₃ w' := by
  cases h with
  | @done target opened out s t w₁ w₂ copied w₃ hcopy hsession hconsume hfinish =>
    obtain ⟨copy, u, hready⟩ := exists_ready hR hL hcopy hsession
    rw [hready.copy_eq] at hconsume hfinish
    refine ⟨copy, target, u, w₂, w₃, out, s, t, hready, hconsume, hfinish, ?_⟩
    exact (Workspace.closeHandle_within _ target w₃).trans _ _ _
      (Workspace.print_within _ (summary t) _)

/-- **What a run of all parts leaves.** -/
theorem SyncRun.synced (hR : settings.remoteLocation = .ok R)
    (hL : settings.copyLocation homes = .ok (some L))
    (hne : R.folder w.disk.workplace ≠ L.folder w.disk.workplace)
    (h : SyncRun homes settings now w opened copied w') :
    Synced R L opened.session w copied w' := by
  obtain ⟨copy, target, u, w₂, w₃, out, s, t, hready, hconsume, hfinish, hend⟩ :=
    h.exists_parts hR hL
  have hestablished := hready.established
  -- the chunks
  obtain ⟨d, rfl, hfetched, hrecording⟩ := hready.fetches_all hconsume
  have hcopies := hfetched.copies (fun _ => isPlain_of_mem_chunkNames) hne
  have hchunks : Stores L opened.session.plan.chunkNames w copied := hfetched.writes
  -- the manifest
  obtain ⟨stored, hbytes, hstores, hstored⟩ :=
    finish_eq_ok hestablished.isFresh hestablished.hasCopy_eq hrecording hfinish
  obtain ⟨content, hcontent, hpublished⟩ := published_of_established hready.remote hestablished
  have hbefore := hready.before.writes fun _ => False
  rw [hbefore.spotIn, hbefore.file? _ id] at hcontent
  rw [hchunks.spotIn, ← hend.file? _ id] at hstored
  exact .of_halves hne hcopies hchunks (hstores.append (.of_stay hend)) hcontent hstored hpublished
    (Manifest.entries_of_toBytes? hpublished hbytes)

/-- **A synchronisation that succeeds has copied every planned chunk and then recorded the update**,
    if the two locations denote different folders. -/
theorem runSync_done (hsettings : request.settings w.disk = .ok settings)
    (hR : settings.remoteLocation = .ok R) (hL : settings.copyLocation homes = .ok (some L))
    (hne : R.folder w.disk.workplace ≠ L.folder w.disk.workplace)
    (h : runSync homes request now w = (.done, w')) :
    ∃ opened copied, SyncRun homes settings now w opened copied w' ∧
      Synced R L opened.session w copied w' := by
  obtain ⟨opened, copied, hrun⟩ := syncRun_of_done hsettings h
  exact ⟨opened, copied, hrun, hrun.synced hR hL hne⟩

end Sync

/-- The manifest of an index with a counter, which offers the chunk 8. -/
def manifestAt (counter : Nat) : Bytes :=
  (Text.toLatin1? ("nexus.index.id=central\nnexus.index.timestamp=20240115103000.123 +0000\n" ++
    "nexus.index.chain-id=c1\nnexus.index.incremental-0=8\nnexus.index.last-incremental=" ++
    Text.ofNat counter)).getD []

/-- A copy on the disk that is one chunk behind an index in memory. -/
def oneBehind : Workspace where
  disk := ⟨[], [(["l"], .directory), (["l", Manifest.resourceName], .file (manifestAt 7))]⟩
  memory := {
    files := [("/r/" ++ Manifest.resourceName, manifestAt 8), ("/r/" ++ chunkName 8, [1, 2, 3])] }

/-- From memory to the disk. -/
def catchUp : Settings := { remote := "memory://r", copy := some "/l" }

theorem runSync_done_oneBehind :
    ∃ w' opened copied,
      runSync [] ⟨some "memory://r", some "/l", none⟩ .earliest oneBehind = (.done, w') ∧
      SyncRun [] catchUp .earliest oneBehind opened copied w' ∧
      Synced (.memory (.ofText "memory://r")) (.disk (.ofText "/l")) opened.session oneBehind copied
        w' := by
  rcases h : runSync [] ⟨some "memory://r", some "/l", none⟩ .earliest oneBehind with ⟨outcome, w'⟩
  have hdone : (match (runSync [] ⟨some "memory://r", some "/l", none⟩ .earliest oneBehind).1 with
      | .done => true
      | _ => false) = true := by decide +kernel
  rw [h] at hdone
  cases outcome with
  | done =>
    have hsettings : Request.settings oneBehind.disk ⟨some "memory://r", some "/l", none⟩ =
        .ok catchUp := rfl
    obtain ⟨opened, copied, hrun, hsynced⟩ := runSync_done hsettings rfl rfl nofun h
    exact ⟨w', opened, copied, rfl, hrun, hsynced⟩
  | reported => cases hdone
  | refused => cases hdone

end Command

end IndexChain
