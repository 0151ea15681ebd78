import IndexChain.Proofs.Command
import IndexChain.Proofs.Plan
import IndexChain.Proofs.Succession

/-!
# Overwriting — synchronising a folder with itself

The two locations of a synchronisation may denote one folder, however they are written. Then each
chunk is stored in place of the file that it is read from, and **the file is emptied before it is
read**. What is read is decided by the stream (`Workspace.yields`): one from the disk shows the file
as it is by now, so that nothing is left of it, and one from memory shows what the file held when it
was opened, so that all is stored again.

The two manifests are one file, too, so there is little to plan: nothing, or the whole index.
-/

namespace IndexChain

/-- A plan from a manifest to itself has no chunks, or the one that is the whole index. -/
theorem Plan.chunkNames_of_decide_self {m : Manifest} {plan : Plan}
    (h : Plan.decide (some m) m = .ok plan) :
    plan.chunkNames = [] ∨ plan.chunkNames = [fullChunkName] := by
  rw [(eq_against_of_decide h).1, against_self]
  split
  · exact .inr rfl
  split
  · exact .inr rfl
  split
  · exact .inl (chunkNames_incremental_succ _)
  · exact .inr rfl

namespace Command

open Workspace (Writes depots yields)

section Overwriting

variable {w w' : Workspace} {R L : Location} {done tried names : List Text}

/-- What is left of the files of some names in a folder. -/
def Leaves (R : Location) (names : List Text) (before w : Workspace) : Prop :=
  ∀ name ∈ names, ∃ content, before.file? (before.spotIn R name) = some content ∧
    w.file? (before.spotIn R name) = some (yields content [] (before.spotIn R name))

/-- The files of some names in a folder are as they were. -/
def Spares (R : Location) (names : List Text) (before w : Workspace) : Prop :=
  ∀ name ∈ names, w.file? (before.spotIn R name) = before.file? (before.spotIn R name)

/-- On the disk nothing is left. -/
theorem Leaves.of_disk {path : DiskPath} (h : Leaves (.disk path) names w w') {name : Text}
    (hname : name ∈ names) : w'.file? (w.spotIn (.disk path) name) = some [] := by
  obtain ⟨content, -, hleft⟩ := h name hname
  exact hleft

/-- In memory all is left. -/
theorem Leaves.of_memory {path : MemoryPath} (h : Leaves (.memory path) names w w') :
    Spares (.memory path) names w w' := by
  intro name hname
  obtain ⟨content, hbefore, hleft⟩ := h name hname
  exact hleft.trans hbefore.symm

/-- **What arrives in the folder that it comes from** is what is left of it. -/
theorem Fetched.leaves (h : Fetched R L done tried w w')
    (hsame : R.folder w.disk.workplace = L.folder w.disk.workplace) : Leaves R done w w' := by
  intro name hname
  obtain ⟨content, hbefore, hleft⟩ := h.arrived name hname
  have hspot : w.spotIn L name = w.spotIn R name := by
    rw [Workspace.spotIn, Workspace.spotIn, hsame]
  rw [hspot, arriving, if_pos rfl] at hleft
  exact ⟨content, hbefore, hleft⟩

end Overwriting

section Sync

variable {homes : DiskPath.Homes} {request : Request} {settings : Settings} {now : Moment}
  {w copied w' : Workspace} {opened : Opened} {R L : Location}

/-- If the two manifests are one file, what the copy says of itself is what is published. -/
theorem copy_eq_of_sameFolder {remote copy : HandleId} {comment : Option Text} {s : Session}
    (hsame : R.folder w.disk.workplace = L.folder w.disk.workplace)
    (hR : w.locationOf? remote = some R) (hL : w.locationOf? copy = some L)
    (h : Session.Established (depots remote (some copy)) true comment w s w') :
    s.copy = none ∨ s.copy = some s.published := by
  obtain ⟨stream, u, v, z, hfetch, hload, hcopy, -⟩ := h.reads
  obtain ⟨content, hcontent, hpublished⟩ := manifest_of_load hR hfetch hload
  generalize hm : s.copy = m at hcopy
  cases Session.loadCopy_eq_ok_iff.mp hcopy with
  | missing => exact .inl rfl
  | @present _ m _ _ hfetch' hload' =>
    refine .inr ?_
    have hstay : Writes (fun _ => False) [] w v :=
      ((Workspace.fetch_within _ remote Manifest.resourceName).of_eq hfetch).trans _ _ _
        ((Session.loadManifest_within (Workspace.stayWithin _ remote (some copy)) stream).of_eq
          hload)
    obtain ⟨content', hcontent', hread⟩ :=
      manifest_of_load (hstay.locationOf? _ _ hL) hfetch' hload'
    rw [hstay.spotIn, hstay.file? _ id, Workspace.spotIn, ← hsame] at hcontent'
    rw [Workspace.spotIn, hcontent'] at hcontent
    cases hcontent
    rw [hpublished] at hread
    cases hread
    rfl

/-- **What a run of all parts leaves of the chunks**, in a folder that it reads from and stores
in. -/
theorem SyncRun.leaves (hR : settings.remoteLocation = .ok R)
    (hL : settings.copyLocation homes = .ok (some L))
    (hsame : R.folder w.disk.workplace = L.folder w.disk.workplace)
    (h : SyncRun homes settings now w opened copied w') :
    (opened.session.plan.chunkNames = [] ∨ opened.session.plan.chunkNames = [Plan.fullChunkName]) ∧
      Leaves R opened.session.plan.chunkNames w w' := by
  obtain ⟨copy, target, u, w₂, w₃, out, s, t, hready, hconsume, hfinish, hend⟩ :=
    h.exists_parts hR hL
  have hestablished := hready.established
  constructor
  · have hplan := hestablished.plan_eq
    have hsame' : R.folder u.disk.workplace = L.folder u.disk.workplace := by
      rw [hready.before.disk]
      exact hsame
    rcases copy_eq_of_sameFolder hsame' hready.remote hready.recording hestablished
      with hcopy | hcopy
    · rw [hcopy] at hplan
      rw [← Except.ok.inj hplan]
      exact .inr rfl
    · rw [hcopy] at hplan
      exact Plan.chunkNames_of_decide_self hplan
  · obtain ⟨d, rfl, hfetched, hrecording⟩ := hready.fetches_all hconsume
    obtain ⟨_, -, hstores, -⟩ :=
      finish_eq_ok hestablished.isFresh hestablished.hasCopy_eq hrecording hfinish
    intro name hname
    obtain ⟨content, hcontent, hleft⟩ := hfetched.leaves hsame name hname
    refine ⟨content, hcontent, ?_⟩
    -- the manifest is stored last, and is no chunk
    have hmanifest : name ∉ [Manifest.resourceName] := fun h =>
      resourceName_not_mem_chunkNames _ (List.mem_singleton.mp h ▸ hname)
    have hkept := file?_of_stores hstores hmanifest
    rw [hfetched.writes.spotIn, Workspace.spotIn, ← hsame] at hkept
    rw [hend.file? _ id]
    exact hkept.trans hleft

/-- **Synchronising a folder with itself.** If that succeeds, nothing was planned or the whole index
was, and:

    * of the planned chunks nothing is left on the disk, so they are as they were exactly if they
      were empty;
    * in memory they are as they were. -/
theorem runSync_onto_itself (hsettings : request.settings w.disk = .ok settings)
    (hR : settings.remoteLocation = .ok R) (hL : settings.copyLocation homes = .ok (some L))
    (hsame : R.folder w.disk.workplace = L.folder w.disk.workplace)
    (h : runSync homes request now w = (.done, w')) :
    ∃ opened copied, SyncRun homes settings now w opened copied w' ∧
      (opened.session.plan.chunkNames = [] ∨
        opened.session.plan.chunkNames = [Plan.fullChunkName]) ∧
      (∀ path, R = .disk path →
        (∀ name ∈ opened.session.plan.chunkNames, w'.file? (w.spotIn R name) = some []) ∧
        (Spares R opened.session.plan.chunkNames w w' ↔
          ∀ name ∈ opened.session.plan.chunkNames, w.file? (w.spotIn R name) = some [])) ∧
      ∀ path, R = .memory path → Spares R opened.session.plan.chunkNames w w' := by
  obtain ⟨opened, copied, hrun⟩ := syncRun_of_done hsettings h
  obtain ⟨hplan, hleaves⟩ := hrun.leaves hR hL hsame
  refine ⟨opened, copied, hrun, hplan, ?_, ?_⟩
  · rintro path rfl
    have hempty : ∀ name ∈ opened.session.plan.chunkNames,
        w'.file? (w.spotIn (.disk path) name) = some [] := fun name hname => hleaves.of_disk hname
    refine ⟨hempty, fun hspares name hname => ?_, fun hbefore name hname => ?_⟩
    · rw [← hspares name hname, hempty name hname]
    · rw [hempty name hname, hbefore name hname]
  · rintro path rfl
    exact hleaves.of_memory

end Sync

/-! ### Two runs -/

/-- Whether a command is done, and what it leaves passes a check. -/
def isDoneWith (check : Workspace → Bool) : Outcome × Workspace → Bool
  | (.done, w) => check w
  | _ => false

theorem exists_of_isDoneWith {check : Workspace → Bool} {r : Outcome × Workspace}
    (h : isDoneWith check r = true) : ∃ w, r = (.done, w) ∧ check w = true := by
  unfold isDoneWith at h
  split at h
  · exact ⟨_, rfl, h⟩
  · cases h

/-- An index without a chain, on the disk. -/
def alone : Workspace where
  disk := ⟨[], [(["r"], .directory),
    (["r", Manifest.resourceName], .file ((Text.toLatin1?
      "nexus.index.id=central\nnexus.index.timestamp=20240115103000.123 +0000").getD [])),
    (["r", Plan.fullChunkName], .file [1, 2, 3])]⟩

/-- A folder and itself, written in two ways. -/
def ontoItself : Settings := { remote := "/r", copy := some "/a/../r" }

theorem runSync_onto_itself_alone :
    ∃ w' opened copied,
      runSync [] ⟨some "/r", some "/a/../r", none⟩ .earliest alone = (.done, w') ∧
      SyncRun [] ontoItself .earliest alone opened copied w' ∧
      ∀ name ∈ opened.session.plan.chunkNames,
        w'.file? (alone.spotIn (.disk (.ofText "/r")) name) = some [] := by
  have hdone :
      isDoneWith (fun _ => true) (runSync [] ⟨some "/r", some "/a/../r", none⟩ .earliest alone) =
        true := by
    decide +kernel
  obtain ⟨w', h, -⟩ := exists_of_isDoneWith hdone
  have hsettings : Request.settings alone.disk ⟨some "/r", some "/a/../r", none⟩ = .ok ontoItself :=
    rfl
  obtain ⟨opened, copied, hrun, -, hdisk, -⟩ := runSync_onto_itself hsettings rfl rfl rfl h
  exact ⟨w', opened, copied, h, hrun, (hdisk _ rfl).1⟩

/-- **The index is lost by a synchronisation that succeeds.** -/
theorem emptied_onto_itself :
    ∃ w', runSync [] ⟨some "/r", some "/r", none⟩ .earliest alone = (.done, w') ∧
      alone.file? (alone.spotIn (.disk (.ofText "/r")) Plan.fullChunkName) = some [1, 2, 3] ∧
      w'.file? (alone.spotIn (.disk (.ofText "/r")) Plan.fullChunkName) = some [] ∧
      "Fetched " ++ Plan.fullChunkName ∈ w'.printed := by
  have hrun : isDoneWith (fun w' =>
      w'.file? (alone.spotIn (.disk (.ofText "/r")) Plan.fullChunkName) = some [] &&
        w'.printed.contains ("Fetched " ++ Plan.fullChunkName))
      (runSync [] ⟨some "/r", some "/r", none⟩ .earliest alone) = true := by
    decide +kernel
  obtain ⟨w', h, hcheck⟩ := exists_of_isDoneWith hrun
  simp only [Bool.and_eq_true, decide_eq_true_eq, List.contains_iff_mem] at hcheck
  obtain ⟨hemptied, hprinted⟩ := hcheck
  exact ⟨w', h, by decide +kernel, hemptied, hprinted⟩

end Command

end IndexChain
