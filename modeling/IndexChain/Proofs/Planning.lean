import IndexChain.Command.Run
import IndexChain.Proofs.Session
import IndexChain.Proofs.Workspace

/-!
# Planning — what a plan depends on

A session is opened by steps that touch handles, streams and the log. What it plans to fetch depends
on none of them: **the plan is a function of what can be read of two manifests**
(`Settings.planIn_eq`). A manifest that cannot be read counts, too: a copy without one is a copy
that says nothing, and any other failure is the failure of planning.
-/

namespace IndexChain

open Workspace (depots)

namespace Workspace

/-! ## 1. What can be read -/

/-- The content of the file that a location denotes, if it can be read. -/
def contentOf (w : Workspace) : Location → Except Fault Bytes
  | .disk path => w.disk.readFile path
  | .memory path => w.memory.readFile path.place

/-- The content of a resource at a location, if it can be read. -/
def contentIn (w : Workspace) (l : Location) (name : Text) : Except Fault Bytes :=
  match l.child name with
  | .error fault => .error fault
  | .ok c => w.contentOf c

/-- Stores and handles are as they were. -/
structure Steady (w w' : Workspace) : Prop where
  disk : w'.disk = w.disk
  memory : w'.memory = w.memory
  handles : w'.handles = w.handles

variable {u w w' : Workspace} {l : Location} {h : HandleId} {name : Text}

theorem Steady.trans (hs : Steady u w) (hs' : Steady w w') : Steady u w' :=
  ⟨hs'.disk.trans hs.disk, hs'.memory.trans hs.memory, hs'.handles.trans hs.handles⟩

/-- What can be read depends on the stores alone. -/
theorem contentIn_of_same (hdisk : w'.disk = w.disk) (hmemory : w'.memory = w.memory) (l : Location)
    (name : Text) : w'.contentIn l name = w.contentIn l name := by
  unfold contentIn
  cases l.child name with
  | error fault => rfl
  | ok c => cases c <;> simp only [contentOf, hdisk, hmemory]

theorem Steady.contentIn (hs : Steady w w') (l : Location) (name : Text) :
    w'.contentIn l name = w.contentIn l name := contentIn_of_same hs.disk hs.memory l name

theorem isOfStore_of_contentIn {fault : Fault} (h : w.contentIn l name = .error fault) :
    isOfStore fault = true := by
  unfold contentIn at h
  cases hchild : l.child name with
  | error fault' =>
    rw [hchild] at h
    cases h
    exact isOfStore_of_child hchild
  | ok c =>
    rw [hchild] at h
    cases c with
    | disk path => exact isOfStore_of_openFile (Run.map_eq_error_iff.mp h)
    | memory path => exact isOfStore_of_readFile h

/-- What a source that was just opened holds is what can be read. -/
theorem map_held_sourceOf (w : Workspace) (c : Location) :
    (w.sourceOf c).map w.held = w.contentOf c := by
  cases c with
  | disk path =>
    show ((w.disk.openFile path).map .disk).map w.held = (w.disk.openFile path).map w.disk.contentAt
    cases w.disk.openFile path <;> rfl
  | memory path =>
    show ((w.memory.readFile path.place).map .memory).map w.held = w.memory.readFile path.place
    cases w.memory.readFile path.place <;> rfl

/-- The outcomes of opening a resource by a handle that is open, and of reading it then. -/
inductive Fetched (w : Workspace) (l : Location) (name : Text) :
    Except Fault StreamId → Workspace → Prop
  | failed {fault : Fault} {u : Workspace} :
      w.contentIn l name = .error fault → Steady w u → Fetched w l name (.error fault) u
  | opened {i : StreamId} {content : Bytes} {u : Workspace} :
      w.contentIn l name = .ok content → Steady w u →
      (∀ remote copy, ∃ v, (depots remote copy).readAndShut i u = (.ok content, v) ∧ Steady u v) →
      Fetched w l name (.ok i) u

theorem read_of_fresh {source : Source} {i : StreamId} (hi : w.streams[i]? = some { source }) :
    ∃ v, read i none w = (.ok (w.held source), v) ∧ Steady w v := by
  unfold read
  rw [hi]
  simp only [Bool.false_eq_true, if_false, List.drop_zero, Option.getD_none, List.take_length]
  exact ⟨_, rfl, rfl, rfl, rfl⟩

theorem shut_steady (i : StreamId) (w : Workspace) : ∃ v, shut i w = (.ok (), v) ∧ Steady w v := by
  simp only [shut, Run.change_apply]
  split
  · exact ⟨w, rfl, rfl, rfl, rfl⟩
  · exact ⟨_, rfl, rfl, rfl, rfl⟩

theorem readAndShut_of_fresh {source : Source} {i : StreamId}
    (hi : w.streams[i]? = some { source }) (remote : HandleId) (copy : Option HandleId) :
    ∃ v, (depots remote copy).readAndShut i w = (.ok (w.held source), v) ∧ Steady w v := by
  obtain ⟨u, hread, hsteady⟩ := read_of_fresh hi
  obtain ⟨v, hshut, hsteady'⟩ := shut_steady i u
  exact ⟨v, Run.ensure_eq_ok_iff.mpr ⟨u, hread, hshut⟩, hsteady.trans hsteady'⟩

theorem fetched (hh : w.handles[h]? = some { location := l }) (name : Text) :
    Fetched w l name (fetch h name w).1 (fetch h name w).2 := by
  rw [fetch_eq]
  cases hchild : l.child name with
  | error fault =>
    have hresource : resource h name "Opening resource" w = (.error fault, w) := by
      simp [resource, hh, hchild]
    rw [Run.bind_of_error hresource]
    exact .failed (by simp only [contentIn, hchild]) ⟨rfl, rfl, rfl⟩
  | ok c =>
    have hresource : resource h name "Opening resource" w =
        (.ok c, noteResource "Opening resource" c w) := by
      simp [resource, hh, hchild, noteResource]
    have hnoted : Steady w (noteResource "Opening resource" c w) := ⟨rfl, rfl, rfl⟩
    have hcontent := map_held_sourceOf (noteResource "Opening resource" c w) c
    rw [Run.bind_of_ok hresource]
    unfold openStream
    cases hsource : (noteResource "Opening resource" c w).sourceOf c with
    | error fault =>
      refine .failed ?_ hnoted
      rw [← hnoted.contentIn, contentIn, hchild]
      simp only [← hcontent, hsource]
      rfl
    | ok source =>
      refine .opened ?_ ⟨rfl, rfl, rfl⟩ (readAndShut_of_fresh List.getElem?_concat_length)
      rw [← hnoted.contentIn, contentIn, hchild]
      simp only [← hcontent, hsource]
      rfl

end Workspace

namespace Session

open Workspace (Steady Fetched)

/-! ## 2. What is planned -/

/-- What a copy says about itself, by the content of its manifest. -/
def copyOf : Except Fault Bytes → Except Fault (Option Manifest)
  | .error fault => if fault.isNotFound then .ok none else .error fault
  | .ok content => (Manifest.ofPayload (.bytes content)).map some

/-- The plan between two places, by the contents of their manifests. -/
def planBetween (offered copied : Except Fault Bytes) : Except Fault Plan := do
  let published ← Manifest.ofPayload (.bytes (← offered))
  let copy ← copyOf copied
  let plan ← Plan.decide copy published
  match published.publishedAt with
  | none => .error (.corruptMetadata (.badTimestamp published.rawTimestamp))
  | some _ => .ok plan

variable {w : Workspace} {remote target : HandleId} {R L : Location}

theorem exists_loadCopy (remote : HandleId) (hL : w.handles[target]? = some { location := L }) :
    ∃ u, loadCopy (depots remote (some target)) w =
        (copyOf (w.contentIn L Manifest.resourceName), u) ∧ Steady w u := by
  have hfetched := Workspace.fetched hL Manifest.resourceName
  unfold loadCopy
  rw [show (depots remote (some target)).fetch .copy Manifest.resourceName w =
    Workspace.fetch target Manifest.resourceName w from rfl]
  generalize Workspace.fetch target Manifest.resourceName w = r at hfetched
  obtain ⟨o, u⟩ := r
  cases hfetched with
  | failed hcontent hsteady =>
    rw [hcontent]
    simp only [copyOf]
    split
    · exact ⟨_, rfl, hsteady.disk, hsteady.memory, hsteady.handles⟩
    · exact ⟨u, rfl, hsteady⟩
  | @opened i content _ hcontent hsteady hread =>
    obtain ⟨v, hread, hsteady'⟩ := hread remote (some target)
    have hload := loadManifest_of_read hread
    rw [hcontent, copyOf]
    cases hmanifest : Manifest.ofPayload (.bytes content) with
    | error fault =>
      rw [hmanifest] at hload
      exact ⟨v, Run.bind_of_error hload, hsteady.trans hsteady'⟩
    | ok m =>
      rw [hmanifest] at hload
      exact ⟨v, Run.bind_of_ok hload, hsteady.trans hsteady'⟩

theorem plan_of_settle (hasCopy : Bool) (comment : Option Text) (published : Manifest)
    (copy : Option Manifest) (w : Workspace) :
    (settle (depots remote (some target)) hasCopy comment published copy w).1.map Session.plan =
      (do
        let plan ← Plan.decide copy published
        match published.publishedAt with
        | none => .error (.corruptMetadata (.badTimestamp published.rawTimestamp))
        | some _ => .ok plan) := by
  unfold settle
  cases Plan.decide copy published with
  | error fault => rfl
  | ok plan => cases published.publishedAt <;> rfl

/-- **The plan of a session depends on what can be read of two manifests**, and on nothing else. -/
theorem plan_of_establish (hR : w.handles[remote]? = some { location := R })
    (hL : w.handles[target]? = some { location := L }) (comment : Option Text) :
    (establish (depots remote (some target)) true comment w).1.map Session.plan =
      planBetween (w.contentIn R Manifest.resourceName) (w.contentIn L Manifest.resourceName) := by
  have hfetched := Workspace.fetched hR Manifest.resourceName
  rcases hfetch : (depots remote (some target)).fetch .remote Manifest.resourceName w with ⟨o, u⟩
  rw [show Workspace.fetch remote Manifest.resourceName w = (o, u) from hfetch] at hfetched
  rw [establish_eq]
  cases hfetched with
  | failed hcontent hsteady =>
    rw [Run.bind_of_error hfetch, hcontent]
    rfl
  | @opened i content _ hcontent hsteady hread =>
    obtain ⟨v, hread, hsteady'⟩ := hread remote (some target)
    have hload := loadManifest_of_read hread
    rw [Run.bind_of_ok hfetch, hcontent]
    cases hpublished : Manifest.ofPayload (.bytes content) with
    | error fault =>
      rw [hpublished] at hload
      rw [Run.bind_of_error hload]
      simp only [planBetween, hpublished, bind, Except.bind, Except.map]
    | ok published =>
      rw [hpublished] at hload
      have hL' : v.handles[target]? = some { location := L } := by
        rwa [hsteady'.handles, hsteady.handles]
      obtain ⟨v', hcopy, -⟩ := exists_loadCopy remote hL'
      rw [(hsteady.trans hsteady').contentIn] at hcopy
      rw [Run.bind_of_ok hload, if_pos rfl]
      cases hcopied : copyOf (w.contentIn L Manifest.resourceName) with
      | error fault =>
        rw [hcopied] at hcopy
        rw [Run.bind_of_error hcopy]
        simp only [planBetween, hpublished, hcopied, bind, Except.bind, Except.map]
      | ok copy =>
        rw [hcopied] at hcopy
        rw [Run.bind_of_ok hcopy, plan_of_settle]
        simp only [planBetween, hpublished, hcopied, bind, Except.bind]

end Session

namespace Settings

variable {homes : DiskPath.Homes} {s : Settings} {R L : Location} {w : Workspace}

/-- The plan of a session between the places that settings name. -/
def planIn (homes : DiskPath.Homes) (s : Settings) (w : Workspace) : Except Fault Plan :=
  (s.openSession homes w).1.map fun opened => opened.session.plan

/-- **Planning reads two manifests**, and nothing else matters to it. -/
theorem planIn_eq (hR : s.remoteLocation = .ok R) (hL : s.copyLocation homes = .ok (some L)) :
    s.planIn homes w =
      Session.planBetween (w.contentIn R Manifest.resourceName)
        (w.contentIn L Manifest.resourceName) := by
  let w₁ : Workspace := { w with handles := w.handles ++ [{ location := R }] }
  let w₂ : Workspace := { w₁ with handles := w₁.handles ++ [{ location := L }] }
  let places := depots w.handles.length (some w₁.handles.length)
  have hremote : openAt s.remoteLocation w = (.ok w.handles.length, w₁) := by
    rw [hR]
    rfl
  have hcopy : s.openCopy homes w₁ = (.ok (some w₁.handles.length), w₂) := by
    unfold openCopy
    rw [hL]
    rfl
  have hplan : (Session.establish places true (some s.comment) w₂).1.map Session.plan =
      Session.planBetween (w.contentIn R Manifest.resourceName)
        (w.contentIn L Manifest.resourceName) := by
    have hhandle : w₂.handles[w.handles.length]? = some { location := R } := by simp [w₂, w₁]
    exact Session.plan_of_establish hhandle List.getElem?_concat_length (some s.comment)
  -- the handles are closed again if there is no session, which does not change why
  have hrecover : ((Session.establish places true (some s.comment)).recover Fault.isOrdinary
      (fun fault => Session.release places true >>= fun _ => Run.fail fault) w₂).1 =
        (Session.establish places true (some s.comment) w₂).1 := Run.recover_fst (fun _ _ => rfl) w₂
  rw [← hrecover] at hplan
  unfold planIn openSession
  rw [Run.bind_of_ok hremote, Run.bind_of_ok hcopy, ← hplan]
  simp only [Option.isSome_some]
  generalize hsession : Run.recover _ _ _ = session
  rcases hopened : session w₂ with ⟨fault | opened, w₃⟩
  · rw [Run.bind_of_error hopened]
    rfl
  · rw [Run.bind_of_ok hopened]
    rfl

end Settings

end IndexChain
