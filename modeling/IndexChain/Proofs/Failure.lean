import IndexChain.Proofs.Command
import IndexChain.Proofs.Growth
import IndexChain.Proofs.Planning

/-!
# Failed synchronisations — what they leave

A synchronisation can fail anywhere: before there is a session, at any chunk, and at its end.
**Whatever it has copied by then, no manifest has changed** (`Grows.file?_manifest`): the manifest
is stored last, and a failure to store it comes before its file is emptied
(`finish_prepares_of_error`).

That the next plan is the same takes more, since a plan depends on what can be read and not on the
bytes alone. Where the path to the copy goes straight on from the first place where nothing is, what
can be read is the same (`Grows.contentIn_eq`). Elsewhere it need not be: a step upwards from a
missing directory leads nowhere until that directory is made.
-/

namespace IndexChain

open Workspace (Untouched Still Grows Prepares depots stayWithin_untouched looksWithin_untouched
  looksWithin_still)

/-! ## 1. What growing leaves to be read -/

namespace Workspace

variable {L : Location} {w w' : Workspace} {name : Text}

/-- The path to a location goes straight on from the first place on it where nothing is; in memory
    nothing is missing. -/
def Clear (w : Workspace) : Location → Prop
  | .disk path => w.disk.Clear path
  | .memory _ => True

/-- **What is no chunk reads as it did.** -/
theorem Grows.contentIn_eq (hd : w.disk.IsTree) (h : Grows L w w') (hclear : w.Clear L)
    (hname : name.IsPlain) (hnot : ¬IsChunkName name)
    (hlimit : ¬Disk.nameLimit < Disk.byteCount name) :
    w'.contentIn L name = w.contentIn L name := by
  have hs := h.stores
  unfold contentIn
  cases hchild : L.child name with
  | error fault => rfl
  | ok c =>
    obtain ⟨path, rfl, rfl⟩ | ⟨path, rfl, rfl⟩ := exists_of_child hchild
    · exact Disk.readFile_of_grows hd hs.1 hclear hname hnot hlimit
    · exact Memory.readFile_of_grows hs.2 hname hnot

/-- No manifest has changed. -/
theorem Grows.file?_manifest (h : Grows L w w') (folder : Folder) :
    w'.file? (folder.spot Manifest.resourceName) = w.file? (folder.spot Manifest.resourceName) := by
  refine h.file?_eq fun name hname heq => ?_
  by_cases hfolder : folder = L.folder w.disk.workplace
  · subst hfolder
    exact not_isChunkName_resourceName (Folder.spot_inj heq ▸ hname)
  · exact Folder.spot_ne hfolder isPlain_resourceName.noSlash hname.isPlain.noSlash heq

end Workspace

namespace Command

/-! ## 2. Copying that fails -/

section Copying

variable {remote target copy : HandleId} {L : Location} {w w' : Workspace} {s t : Session}
  {now : Moment} {fault : Fault}

theorem copyChunk_grows (remote copy : HandleId) {chunk : Chunk} (hname : IsChunkName chunk.name)
    (hL : w.locationOf? target = some L) :
    Grows L w (copyChunk (depots remote (some copy)) target chunk w).2 :=
  (Workspace.save_grows hname hL (Workspace.read_untouched chunk.stream none)).bind fun _ =>
    Workspace.print_untouched _

/-- Whatever comes of copying the chunks, only chunks are stored. -/
theorem consumeAll_grows (remote copy : HandleId) (hs : s.IsFresh)
    (hL : w.locationOf? target = some L) :
    ∃ o d u, Session.consumeAll (depots remote (some copy))
        (fun _ chunk => Session.onDepots (copyChunk (depots remote (some copy)) target chunk))
        (s, w) =
          (o, s.passing d, u) ∧ Grows L w u := by
  have hstay := stayWithin_untouched remote (some copy)
  have hnextGrows {d d' : Delivery} {u v : Workspace} {o : Except Fault Chunk} (hu : Grows L w u)
      (h : Delivery.next (depots remote (some copy)) (d, u) = (o, d', v)) : Grows L w v :=
    hu.trans (.of_untouched L ((Delivery.next_within hstay).of_eq h))
  have hbodyGrows {d d' : Delivery} {u v v' : Workspace} {chunk : Chunk} {o : Except Fault Unit}
      (hpending : ∀ name ∈ d.pending, IsChunkName name) (hu : Grows L w u)
      (hnext : Delivery.next (depots remote (some copy)) (d, u) = (.ok chunk, d', v))
      (h : copyChunk (depots remote (some copy)) target chunk v = (o, v')) : Grows L w v' := by
    have hname : IsChunkName chunk.name :=
      hpending chunk.name (Session.pending_of_next hnext ▸ List.mem_cons_self)
    have hv := hnextGrows hu hnext
    have hcopied := copyChunk_grows remote copy hname (hv.locationOf? _ _ hL)
    rw [h] at hcopied
    exact hv.trans hcopied
  exact Session.consumeAll_rule (fun _ chunk => copyChunk (depots remote (some copy)) target chunk)
    (I := fun d u => (∀ name ∈ d.pending, IsChunkName name) ∧ Grows L w u)
    (Q := fun _ _ u => Grows L w u) hs
    (fun _ _ _ _ _ hI hnext => hnextGrows hI.2 hnext)
    (fun _ _ _ _ _ hI hnext _ => hnextGrows hI.2 hnext)
    (fun _ _ _ _ _ _ _ _ hI hnext hbody => hbodyGrows hI.1 hI.2 hnext hbody)
    (fun _ _ _ _ _ _ _ _ hI hnext hbody =>
      ⟨fun name hname => hI.1 name (Session.pending_of_next hnext ▸ List.mem_cons_of_mem _ hname),
        hbodyGrows hI.1 hI.2 hnext hbody⟩)
    ⟨fun name hname => ⟨s.plan, hname⟩, .refl L w⟩

theorem record_prepares_of_error {published : Manifest} {comment : Option Text}
    (hL : w.locationOf? copy = some L)
    (h : Handover.record (depots remote (some copy)) published comment now w = (.error fault, w')) :
    ∃ tried, tried <+: [Manifest.resourceName] ∧ Prepares L tried w w' := by
  unfold Handover.record at h
  cases hstored : published.entries.toBytes? comment now with
  | none =>
    rw [hstored] at h
    cases h
    exact ⟨[], List.nil_prefix, .of_untouched L (.refl w)⟩
  | some stored =>
    rw [hstored] at h
    rcases hsave : Workspace.save copy Manifest.resourceName (Run.done stored) w with
      ⟨fault' | ⟨⟩, u⟩
    · cases (Run.bind_of_error hsave).symm.trans h
      exact Workspace.save_prepares_of_error isPlain_resourceName hL hsave
    · cases (Run.bind_of_ok hsave).symm.trans h

theorem release_ok (remote : HandleId) (copy : Option HandleId) (side : Side) (w : Workspace) :
    ((depots remote copy).release side w).1 = .ok () := by
  cases side with
  | remote => rfl
  | copy => cases copy <;> rfl

/-- A session can always be closed. -/
theorem close_ok (remote : HandleId) (copy : Option HandleId) (s : Session) (w : Workspace) :
    (Session.close (depots remote copy) (s, w)).1 = .ok () := by
  have hrelease (u : Workspace) :
      (Session.release (depots remote copy) s.hasCopy u).1 = .ok () := by
    unfold Session.release
    rw [Run.ensure_of_ok]
    · exact release_ok remote copy .remote u
    · intro v
      split
      · exact release_ok remote copy .copy v
      · rfl
  cases hs : s.closed with
  | true => simp only [Session.close, hs, if_true]
  | false =>
    rw [Session.close_eq hs, Run.ensure_of_ok hrelease]
    exact shutCurrent_ok s.liveDelivery w

/-- **A session that cannot be finished has recorded nothing.** -/
theorem finish_prepares_of_error {d : Delivery} (hs : s.IsFresh) (hcopy : s.hasCopy = true)
    (hL : w.locationOf? copy = some L)
    (h : Session.finish (depots remote (some copy)) now (s.passing d, w) = (.error fault, t, w')) :
    ∃ tried, tried <+: [Manifest.resourceName] ∧ Prepares L tried w w' := by
  have hrecord := Session.recordPass_of_finish_passing hs h
  have hshut := @shutCurrent_ok remote (some copy) d w
  have hshutStay := Prepares.of_untouched L
    (Delivery.shutCurrent_within (stayWithin_untouched remote (some copy)) d w)
  unfold Session.recordPass at hrecord
  rcases hu : d.shutCurrent (depots remote (some copy)) w with ⟨o, u⟩
  rw [hu] at hshut hshutStay hrecord
  cases hshut
  -- the copy is released whatever came of recording
  simp only [Handover.finalize, hcopy, if_pos] at hrecord
  rw [Run.ensure_of_ok (release_ok remote (some copy) .copy)] at hrecord
  rcases hreleased : (depots remote (some copy)).release .remote u with ⟨o, v⟩
  have hok := release_ok remote (some copy) .remote u
  have hreleasedStay := Prepares.of_untouched L
    (Workspace.release_untouched remote (some copy) .remote u)
  rw [hreleased] at hok hreleasedStay
  cases hok
  rw [Run.bind_of_ok hreleased] at hrecord
  have hv := hshutStay.append hreleasedStay
  rcases hrecorded : Handover.record (depots remote (some copy)) s.published s.comment
    now v with ⟨o, x⟩
  rw [hrecorded] at hrecord
  cases hrecord
  obtain ⟨tried, htried, hprepares⟩ :=
    record_prepares_of_error (hv.grows.locationOf? _ _ hL) hrecorded
  have hall := (hv.append hprepares).append
    (.of_untouched L (Workspace.release_untouched remote (some copy) .copy x))
  exact ⟨tried, htried, by simpa using hall⟩

/-- Copying fails at a chunk, after which the session is closed, or else the session cannot be
finished. -/
theorem copyAll_eq_error
    (h : copyAll (depots remote (some copy)) target now (s, w) = (.error fault, t, w')) :
    (∃ fault' t' u, Session.consumeAll (depots remote (some copy))
        (fun _ chunk => Session.onDepots (copyChunk (depots remote (some copy)) target chunk))
        (s, w) =
          (.error fault', t', u) ∧ Still u w') ∨
      ∃ out t' u, Session.consumeAll (depots remote (some copy))
        (fun _ chunk => Session.onDepots (copyChunk (depots remote (some copy)) target chunk))
        (s, w) =
          (.ok out, t', u) ∧
        Session.finish (depots remote (some copy)) now (t', u) = (.error fault, t, w') := by
  unfold copyAll at h
  rcases hconsume : Session.consumeAll (depots remote (some copy))
      (fun _ chunk => Session.onDepots (copyChunk (depots remote (some copy)) target chunk))
      (s, w) with
    ⟨fault' | out, t', u⟩
  · have hclosed := @Session.during_snd_of_error _ (depots remote (some copy)) _ now _ _ _ _
      (Run.bind_of_error (f := fun _ => pure ()) hconsume)
    rw [h] at hclosed
    have hstill := close_within looksWithin_still remote (some copy) t' u
    rw [← hclosed] at hstill
    exact .inl ⟨fault', t', u, rfl, hstill⟩
  · have hbody := Run.bind_of_ok (f := fun _ => (pure () : Run (Session × Workspace) Unit)) hconsume
    unfold Session.during at h
    rw [hbody] at h
    simp only [Run.pure_apply] at h
    rcases hfinish : Session.finish (depots remote (some copy)) now
      (t', u) with ⟨fault' | ⟨⟩, t'', v⟩
    · rw [hfinish] at h
      cases h
      exact .inr ⟨out, t', u, rfl, hfinish⟩
    · rw [hfinish] at h
      cases h

/-- **Copying that fails, at a chunk or at the end, has only stored chunks.** -/
theorem copyAll_grows_of_error (hs : s.IsFresh) (hcopy : s.hasCopy = true)
    (hL : w.locationOf? copy = some L) (hL' : w.locationOf? target = some L)
    (h : copyAll (depots remote (some copy)) target now (s, w) = (.error fault, t, w')) :
    Grows L w w' := by
  obtain ⟨o, d, u, hconsume, hgrows⟩ := consumeAll_grows remote copy hs hL'
  rcases copyAll_eq_error h with ⟨fault', t', u', hfailed, hstill⟩ | ⟨out, t', u', hdone, hfinish⟩
  · rw [hconsume] at hfailed
    cases hfailed
    exact hgrows.trans (.of_untouched L hstill.toUntouched)
  · rw [hconsume] at hdone
    cases hdone
    obtain ⟨_, -, hprepares⟩ :=
      finish_prepares_of_error hs hcopy (hgrows.locationOf? _ _ hL) hfinish
    exact hgrows.trans hprepares.grows

end Copying

/-! ## 3. Synchronisations that fail -/

section Failed

variable {homes : DiskPath.Homes} {settings : Settings} {request : Request} {now : Moment}
  {w w' : Workspace} {outcome : Outcome}

/-- Settings that a session could be opened with name two places, or one and no copy. -/
theorem exists_locations {opened : Opened} (h : settings.openSession homes w = (.ok opened, w')) :
    ∃ R location, settings.remoteLocation = .ok R ∧ settings.copyLocation homes = .ok location := by
  obtain ⟨_, u, hremote, h⟩ := Run.bind_eq_ok_iff.mp h
  obtain ⟨R, _, hR, -⟩ := Run.bind_eq_ok_iff.mp hremote
  obtain ⟨_, _, hcopy, -⟩ := Run.bind_eq_ok_iff.mp h
  obtain ⟨location, _, hL, -⟩ := Run.bind_eq_ok_iff.mp hcopy
  rw [Run.ofExcept_apply] at hR hL
  exact ⟨R, location, congrArg Prod.fst hR, congrArg Prod.fst hL⟩

theorem exists_copyLocation {target : HandleId}
    (h : settings.openCopy homes w = (.ok (some target), w')) :
    ∃ L, settings.copyLocation homes = .ok (some L) := by
  obtain ⟨location, u, hlocation, h⟩ := Run.bind_eq_ok_iff.mp h
  rw [Run.ofExcept_apply] at hlocation
  cases location with
  | none => cases h
  | some L => exact ⟨L, congrArg Prod.fst hlocation⟩

/-- **Whatever a synchronisation that fails has done, the stores have at most grown.** -/
theorem runSync_failed (h : runSync homes request now w = (outcome, w'))
    (hfailed : outcome ≠ .done) :
    Untouched [] w w' ∨ ∃ settings L, request.settings w.disk = .ok settings ∧
      settings.copyLocation homes = .ok (some L) ∧ Grows L w w' := by
  have hend := syncEnd homes request now w
  rw [h] at hend
  cases hend with
  | unset => exact .inl (.refl _)
  | misplaced _ hcopy | uncopied _ hcopy =>
    exact .inl ((openCopy_within looksWithin_untouched homes _).of_eq hcopy)
  | unopened _ hcopy hsession _ hleft =>
    have hopening := (openCopy_within looksWithin_untouched homes _).of_eq hcopy
    have hestablishing := (openSession_within looksWithin_untouched homes _).of_eq hsession
    exact .inl ((hopening.trans _ _ _ hestablishing).trans _ _ _ hleft.toUntouched)
  | @failed settings target opened t fault w₁ w₂ w₃ _ _ hsettings hcopy hsession hall _ hleft =>
    obtain ⟨R, _, hR, -⟩ := exists_locations hsession
    obtain ⟨L, hL⟩ := exists_copyLocation hcopy
    obtain ⟨copy, u, hready⟩ := exists_ready hR hL hcopy hsession
    rw [hready.copy_eq] at hall
    have hgrows := copyAll_grows_of_error hready.established.isFresh hready.established.hasCopy_eq
      (hready.reading.locationOf? _ _ hready.recording)
      (hready.reading.locationOf? _ _ hready.storing) hall
    have hopening := (hready.before.trans _ _ _ hready.reading).toUntouched
    exact .inr ⟨settings, L, hsettings, hL, (Grows.of_untouched L hopening).trans
      (hgrows.trans (.of_untouched L hleft.toUntouched))⟩
  | done => exact absurd rfl hfailed

end Failed

/-! ## 4. Command lines that fail -/

theorem showPlan_untouched (format : Text) (s : Session) (w : Workspace) :
    Untouched [] w (showPlan format s w).2 := by
  unfold showPlan
  split
  · exact .refl w
  · exact Workspace.print_untouched _ w

/-- Showing a plan touches nothing, whatever comes of it. -/
theorem runPlan_untouched (homes : DiskPath.Homes) (request : Request) (format : Text)
    (w : Workspace) : Untouched [] w (runPlan homes request format w).2 := by
  unfold runPlan
  cases request.settings w.disk with
  | error refusal => exact .refl w
  | ok settings =>
    have hopening := openSession_within looksWithin_untouched homes settings w
    simp only
    rcases hsession : settings.openSession homes w with ⟨fault | opened, w₁⟩
    · rw [hsession] at hopening
      exact hopening.trans _ _ _ (failed_still fault w₁).toUntouched
    · have hclosing :=
        close_within looksWithin_untouched opened.remote opened.copy opened.session w₁
      rw [hsession] at hopening
      simp only
      rcases hclose : Session.close (depots opened.remote opened.copy) (opened.session, w₁) with
        ⟨fault | ⟨⟩, s, w₂⟩ <;> rw [hclose] at hclosing
      · exact hopening.trans _ _ _ hclosing
      · exact hopening.trans _ _ _ (hclosing.trans _ _ _ (showPlan_untouched format s w₂))

/-- Whatever settings lead to the same copy, the same published manifest leads to the same plan. -/
def PlansAlike (homes : DiskPath.Homes) (L : Location) (w w' : Workspace) : Prop :=
  ∀ (settings : Settings) (R : Location), settings.remoteLocation = .ok R →
    settings.copyLocation homes = .ok (some L) →
    w'.contentIn R Manifest.resourceName = w.contentIn R Manifest.resourceName →
    settings.planIn homes w' = settings.planIn homes w

theorem plansAlike_of_grows {homes : DiskPath.Homes} {L : Location} {w w' : Workspace}
    (hd : w.disk.IsTree) (hclear : w.Clear L) (h : Grows L w w') : PlansAlike homes L w w' := by
  intro settings R hR hL hremote
  have hcopy :=
    h.contentIn_eq hd hclear isPlain_resourceName not_isChunkName_resourceName (by decide)
  rw [Settings.planIn_eq hR hL, Settings.planIn_eq hR hL, hremote, hcopy]

/-- What a command that fails has stored are chunks of one copy. -/
theorem exists_grows_of_failed {homes : DiskPath.Homes} {now : Moment} {command : Command}
    {w w' : Workspace} {outcome : Outcome} (h : run homes now command w = (outcome, w'))
    (hfailed : outcome ≠ .done) : ∃ L, Grows L w w' := by
  cases command with
  | plan request format =>
    have hplanned := runPlan_untouched homes request format w
    rw [show runPlan homes request format w = (outcome, w') from h] at hplanned
    exact ⟨default, .of_untouched default hplanned⟩
  | sync request =>
    rcases runSync_failed h hfailed with hsame | ⟨_, L, -, -, hgrows⟩
    · exact ⟨default, .of_untouched default hsame⟩
    · exact ⟨L, hgrows⟩

/-- **A command that fails changes no manifest**, and if it was to synchronise a copy, the next plan
    for that copy is the one that was made before. -/
theorem unrecorded_of_failed {homes : DiskPath.Homes} {now : Moment} {words : List Text}
    {w w' : Workspace} {outcome : Outcome} (h : runWords homes now words w = (outcome, w'))
    (hfailed : outcome ≠ .done) :
    (∀ folder : Folder, w'.file? (folder.spot Manifest.resourceName) =
      w.file? (folder.spot Manifest.resourceName)) ∧
    ∀ line request settings L, Line.ofWords words = .ok line → line.command = .sync request →
      request.settings w.disk = .ok settings → settings.copyLocation homes = .ok (some L) →
      w.disk.IsTree → w.Clear L → PlansAlike homes L w w' := by
  unfold runWords at h
  cases hline : Line.ofWords words with
  | error misuse =>
    rw [hline] at h
    cases h
    refine ⟨fun _ => rfl, fun line request settings L hline' => ?_⟩
    cases hline'
  | ok line =>
    rw [hline] at h
    simp only at h
    rcases hrun : run homes now line.command w with ⟨o, u⟩
    rw [hrun] at h
    cases h
    -- which log records are kept does not matter
    have hkept (L : Location) : Grows L u { u with
        journal := u.journal.filter (Record.isKept line.threshold) } :=
      .of_same L rfl rfl fun _ _ hk => hk
    obtain ⟨L, hL⟩ := exists_grows_of_failed hrun hfailed
    refine ⟨fun folder => (hL.trans (hkept L)).file?_manifest folder, ?_⟩
    rintro line' request settings L ⟨⟩ hcommand hsettings hlocation hd hclear
    rw [hcommand] at hrun
    refine plansAlike_of_grows hd hclear (.trans ?_ (hkept L))
    rcases runSync_failed hrun hfailed with hsame | ⟨settings', L', hsettings', hlocation', hgrows⟩
    · exact .of_untouched L hsame
    · -- the copy is where the settings say
      obtain rfl := Except.ok.inj (hsettings.symm.trans hsettings')
      obtain rfl := Option.some.inj (Except.ok.inj (hlocation.symm.trans hlocation'))
      exact hgrows

/-- A copy that is two chunks behind an index which has lost the second one. -/
def chunkMissing : Workspace where
  disk := ⟨[], [(["r"], .directory), (["r", Manifest.resourceName], .file (manifestAt 9)),
    (["r", chunkName 8], .file [1, 2, 3]), (["l"], .directory),
    (["l", Manifest.resourceName], .file (manifestAt 7))]⟩

theorem unrecorded_of_failed_chunkMissing :
    ∃ w', runWords [] .earliest ["sync", "r", "-l", "l"] chunkMissing = (.reported, w') ∧
      w'.file? (.disk ["l", chunkName 8]) = some [1, 2, 3] ∧
      w'.file? (.disk ["l", Manifest.resourceName]) = some (manifestAt 7) ∧
      PlansAlike [] (.disk (.ofText "l")) chunkMissing w' := by
  rcases h : runWords [] .earliest ["sync", "r", "-l", "l"] chunkMissing with ⟨outcome, w'⟩
  have hrun : (match runWords [] .earliest ["sync", "r", "-l", "l"] chunkMissing with
      | (.reported, w') => decide (w'.file? (.disk ["l", chunkName 8]) = some [1, 2, 3])
      | _ => false) = true := by decide +kernel
  rw [h] at hrun
  cases outcome with
  | reported =>
    obtain ⟨hmanifest, halike⟩ := unrecorded_of_failed h nofun
    refine ⟨w', rfl, of_decide_eq_true hrun, hmanifest (.disk ["l"]), ?_⟩
    exact halike ⟨false, false, .sync ⟨some "r", some "l", none⟩⟩
      _ { remote := "r", copy := some "l" } _ (by decide +kernel) rfl rfl rfl
      (Disk.isTree_of_entries rfl (by decide +kernel))
      (Disk.clear_of_down _ (by decide +kernel))
  | done => cases hrun
  | refused => cases hrun

/-- A copy that is reached by a detour over a directory that is missing, and whose whole index is a
    directory. -/
def detour : Workspace where
  disk := ⟨[], [(["r"], .directory), (["r", Manifest.resourceName], .file (manifestAt 8)),
    (["r", Plan.fullChunkName], .file [1, 2, 3]), (["r", chunkName 8], .file [3]),
    (["b"], .directory), (["b", Manifest.resourceName], .file (manifestAt 7)),
    (["b", Plan.fullChunkName], .directory)]⟩

/-- Between `r` and the copy behind the detour. -/
def overDetour : Settings := { remote := "r", copy := some "a/../b" }

theorem eq_ok_of_toOption {α : Type} {e : Except Fault α} {a : α} (h : e.toOption = some a) :
    e = .ok a := by
  cases e with
  | error fault => cases h
  | ok b => exact congrArg Except.ok (Option.some.inj h)

/-- **A failure may change the next plan** if the path to the copy turns upwards where nothing is:
    the directory that is made on the way to the first chunk lets the manifest be found. -/
theorem replanned_detour :
    detour.disk.IsTree ∧ ∃ outcome w',
      runWords [] .earliest ["sync", "r", "-l", "a/../b"] detour = (outcome, w') ∧ outcome ≠ .done ∧
      w'.contentIn (.disk (.ofText "r")) Manifest.resourceName =
        detour.contentIn (.disk (.ofText "r")) Manifest.resourceName ∧
      overDetour.planIn [] detour = .ok (.full .noLocalState) ∧
      overDetour.planIn [] w' = .ok (.incremental 8 8) := by
  refine ⟨Disk.isTree_of_entries rfl (by decide +kernel), ?_⟩
  have hbefore : (detour.contentIn (.disk (.ofText "r")) Manifest.resourceName).toOption =
      some (manifestAt 8) ∧ (overDetour.planIn [] detour).toOption =
        some (.full .noLocalState) := by
    decide +kernel
  rcases h : runWords [] .earliest ["sync", "r", "-l", "a/../b"] detour with ⟨outcome, w'⟩
  have hafter : (match runWords [] .earliest ["sync", "r", "-l", "a/../b"] detour with
      | (.refused _, w') => decide ((w'.contentIn (.disk (.ofText "r"))
          Manifest.resourceName).toOption = some (manifestAt 8) ∧
          (overDetour.planIn [] w').toOption = some (.incremental 8 8))
      | _ => false) = true := by decide +kernel
  rw [h] at hafter
  cases outcome with
  | refused refusal =>
    obtain ⟨hremote, hplan⟩ := of_decide_eq_true hafter
    refine ⟨_, w', rfl, nofun, ?_, eq_ok_of_toOption hbefore.2, eq_ok_of_toOption hplan⟩
    rw [eq_ok_of_toOption hremote, eq_ok_of_toOption hbefore.1]
  | done => cases hafter
  | reported => cases hafter

end Command

end IndexChain
