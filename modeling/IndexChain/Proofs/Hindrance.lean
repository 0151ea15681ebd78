import IndexChain.Proofs.Growth
import IndexChain.Proofs.Hindrance.Disk
import IndexChain.Proofs.Hindrance.Memory

/-!
# Hindrances — what keeps a resource from being stored

Storing a resource fails of what is in its way or of its content. What is in the way of a name
(`hindrance?`) is known before anything is stored, since **storing other names at the same location
neither puts something in its way nor takes it away** (`Alike`). On the disk this may be a directory
of that name, a file where a directory has to be, or a name that is too long.

Content that can be read is stored exactly if nothing is in the way (`save_of_open`).
-/

namespace IndexChain

namespace Workspace

variable {u v w w' : Workspace} {l c : Location} {name other : Text} {fault : Fault}

/-! ## 1. What is in the way of a name -/

/-- What storing a name at a location fails of before its content is asked for. -/
def hindrance? (w : Workspace) (l : Location) (name : Text) : Option Fault :=
  match l.child name with
  | .error fault => some fault
  | .ok c => (begin c).failure? w

theorem failure?_begin (c : Location) (w : Workspace) :
    (begin c).failure? w =
      match c with
      | .disk path => (Disk.prepare path).failure? w.disk
      | .memory path => (Memory.prepare path).failure? w.memory := by
  cases c with
  | disk path =>
    simp only [Run.failure?, begin, Disk.prepare, onDisk, bind, Run.andThen]
    rcases Disk.ensureDirectories path.parent w.disk with ⟨fault | ⟨⟩, d⟩
    · rfl
    · rcases hempty : Disk.truncate path d with ⟨fault | place, e⟩ <;> simp [hempty]
  | memory path =>
    simp only [Run.failure?, begin, Memory.prepare, onMemory, bind, Run.andThen]
    rcases Memory.ensureDirectories path.parent w.memory with ⟨fault | ⟨⟩, m⟩
    · rfl
    · rcases hempty : Memory.truncate path.place m with ⟨fault | ⟨⟩, k⟩ <;> simp [hempty]

/-- What is in the way depends on the stores alone. -/
theorem hindrance?_of_same (hdisk : w'.disk = w.disk) (hmemory : w'.memory = w.memory)
    (l : Location) (name : Text) : w'.hindrance? l name = w.hindrance? l name := by
  unfold hindrance?
  cases l.child name with
  | error fault => rfl
  | ok c =>
    simp only [failure?_begin, hdisk, hmemory]

theorem isOfStore_of_prepare_disk {path : DiskPath} {d : Disk}
    (h : (Disk.prepare path).failure? d = some fault) : isOfStore fault = true := by
  unfold Disk.prepare at h
  rcases hensure : Disk.ensureDirectories path.parent d with ⟨fault' | ⟨⟩, e⟩
  · rw [Run.failure?_bind_of_error hensure] at h
    cases h
    unfold Disk.ensureDirectories at hensure
    cases haskable : Disk.unaskable? path.parent with
    | some fault' =>
      rw [haskable] at hensure
      cases hensure
      exact isOfStore_of_unaskable haskable
    | none =>
      rw [haskable] at hensure
      obtain ⟨kind, path', rfl⟩ := Disk.exists_failure_of_ensureAll hensure
      rfl
  · rw [Run.failure?_bind_of_ok hensure] at h
    unfold Run.failure? Disk.truncate at h
    cases haskable : Disk.unaskable? path with
    | some fault' =>
      rw [haskable] at h
      cases h
      exact isOfStore_of_unaskable haskable
    | none =>
      rw [haskable] at h
      rcases hlocate : e.locate path with kind | ⟨place, _ | (_ | content)⟩ <;>
        rw [hlocate] at h <;> cases h <;> rfl

theorem isOfStore_of_prepare_memory {path : MemoryPath} {m : Memory}
    (h : (Memory.prepare path).failure? m = some fault) : isOfStore fault = true := by
  unfold Memory.prepare at h
  rcases hensure : Memory.ensureDirectories path.parent m with ⟨fault' | ⟨⟩, k⟩
  · rw [Run.failure?_bind_of_error hensure] at h
    cases h
    exact isOfStore_of_isIo (Memory.isIo_of_ensureDirectories hensure)
  · rw [Run.failure?_bind_of_ok hensure, Memory.failure?_truncate] at h
    exact isOfStore_of_obstacle h

/-- **What is in the way is told by the store.** -/
theorem isOfStore_of_hindrance? (h : w.hindrance? l name = some fault) :
    isOfStore fault = true := by
  unfold hindrance? at h
  cases hchild : l.child name with
  | error fault' =>
    rw [hchild] at h
    cases h
    exact isOfStore_of_child hchild
  | ok c =>
    rw [hchild] at h
    simp only [failure?_begin] at h
    cases c with
    | disk path => exact isOfStore_of_prepare_disk h
    | memory path => exact isOfStore_of_prepare_memory h

/-! ## 2. What storing leaves in the way -/

/-- The stores are the same but for files at a location. -/
def LikeAt : Location → Workspace → Workspace → Prop
  | .disk _, w, w' => w.disk.SameDirectories w'.disk
  | .memory path, w, w' => w.memory.SameAround path w'.memory

theorem LikeAt.trans (h : LikeAt l u v) (h' : LikeAt l v w) : LikeAt l u w := by
  cases l with
  | disk path =>
    have h : u.disk.SameDirectories v.disk := h
    exact h.trans h'
  | memory path =>
    have h : u.memory.SameAround path v.memory := h
    exact h.trans h'

theorem LikeAt.of_same (l : Location) (hdisk : w'.disk = w.disk) (hmemory : w'.memory = w.memory) :
    LikeAt l w w' := by
  cases l with
  | disk path =>
    show w.disk.SameDirectories w'.disk
    rw [hdisk]
    exact .refl w.disk
  | memory path =>
    show w.memory.SameAround path w'.memory
    rw [hmemory]
    exact .refl path w.memory

theorem LikeAt.spotIn (h : LikeAt l w w') (name : Text) : w'.spotIn l name = w.spotIn l name := by
  cases l with
  | disk path =>
    have h : w.disk.SameDirectories w'.disk := h
    unfold Workspace.spotIn
    rw [h.workplace]
  | memory path => rfl

theorem LikeAt.isFree (h : LikeAt l w w') (hfree : w.IsFree (w.spotIn l name)) :
    w'.IsFree (w'.spotIn l name) := by
  rw [h.spotIn]
  cases l with
  | disk path =>
    have h : w.disk.SameDirectories w'.disk := h
    exact fun hdirectory => hfree ((h.directory _).mp hdirectory)
  | memory path => trivial

theorem likeAt_put (hname : name.IsPlain) (hfree : w.IsFree (w.spotIn l name)) (content : Bytes) :
    LikeAt l w (w.put (w.spotIn l name) content) := by
  cases l with
  | disk path => exact Disk.sameDirectories_put hfree content
  | memory path => exact Memory.sameAround_put hname w.memory content

/-- **When the way to one name was made, what is in the way of another one is what was in its way
before.** -/
theorem hindrance?_of_makeWay (hname : name.IsPlain) (hchild : l.child name = .ok c)
    (hmake : makeWay c w = (.ok (), u)) (hlike : LikeAt l u w') (hother : other.IsPlain) :
    w'.hindrance? l other = w.hindrance? l other := by
  unfold hindrance?
  obtain ⟨c', hchild', -⟩ := l.exists_child w.disk.workplace hother
  rw [hchild']
  simp only [failure?_begin]
  obtain ⟨path, rfl, rfl⟩ | ⟨path, rfl, rfl⟩ := exists_of_child hchild
  · obtain ⟨_, heq, rfl⟩ | ⟨_, heq, rfl⟩ := exists_of_child hchild'
    · cases heq
      have hmake : onDisk (Disk.ensureDirectories (path.child name).parent) w = (.ok (), u) := hmake
      obtain ⟨d, hensure, rfl⟩ := onDisk_eq_ok hmake
      rw [DiskPath.child_of_isPlain path hname, DiskPath.parent, List.dropLast_concat] at hensure
      exact Disk.failure?_prepare_of_sameDirectories hensure hlike hother
    · cases heq
  · obtain ⟨_, heq, rfl⟩ | ⟨_, heq, rfl⟩ := exists_of_child hchild'
    · cases heq
    · cases heq
      have hmake : onMemory (Memory.ensureDirectories (path.child name).parent) w = (.ok (), u) :=
        hmake
      obtain ⟨m, hensure, rfl⟩ := onMemory_eq_ok hmake
      exact Memory.failure?_prepare_of_sameAround hname hensure hlike hother

/-- Handles are as they were, and nothing was put in the way of names at a location or taken away
from there. -/
structure Alike (l : Location) (w w' : Workspace) : Prop where
  handles : w'.handles = w.handles
  hindrance? : ∀ name, name.IsPlain → w'.hindrance? l name = w.hindrance? l name

namespace Alike

theorem refl (l : Location) (w : Workspace) : Alike l w w := ⟨rfl, fun _ _ => rfl⟩

theorem trans (h : Alike l u v) (h' : Alike l v w) : Alike l u w :=
  ⟨h'.handles.trans h.handles, fun name hname => (h'.hindrance? name hname).trans
    (h.hindrance? name hname)⟩

theorem of_same (l : Location) (hdisk : w'.disk = w.disk) (hmemory : w'.memory = w.memory)
    (hhandles : w'.handles = w.handles) : Alike l w w' :=
  ⟨hhandles, fun name _ => hindrance?_of_same hdisk hmemory l name⟩

theorem of_reads (l : Location) (h : Reads w w') : Alike l w w' :=
  of_same l h.disk h.memory h.handles

end Alike

/-! ## 3. Storing by a handle that is open -/

section Save

variable {h : HandleId} {content : Run Workspace Bytes}

/-- **What can be read is stored, unless something is in the way**; then the fault is what that
is. -/
theorem save_of_open (hname : name.IsPlain) (hopen : w.handles[h]? = some { location := l })
    (hreads : Run.Within Reads content)
    (hcontent : ∀ u, u.streams = w.streams → ∃ bytes, (content u).1 = .ok bytes) :
    (∃ fault w', save h name content w = (.error fault, w') ∧ w.hindrance? l name = some fault) ∨
      w.hindrance? l name = none ∧ ∃ w', save h name content w = (.ok (), w') ∧ Alike l w w' := by
  obtain ⟨c, hchild, -⟩ := l.exists_child w.disk.workplace hname
  have hresource :
      resource h name "Saving resource" w = (.ok c, noteResource "Saving resource" c w) := by
    simp [resource, hopen, hchild, noteResource]
  have hnoted : Alike l w (noteResource "Saving resource" c w) := .of_same l rfl rfl rfl
  have hstreams := streams_makeWay c (noteResource "Saving resource" c w)
  have hhandles : (makeWay c (noteResource "Saving resource" c w)).2.handles = w.handles := by
    cases c <;> rfl
  have hfailure :
      w.hindrance? l name = (begin c).failure? (noteResource "Saving resource" c w) := by
    rw [← hnoted.hindrance? name hname, hindrance?, hchild]
  unfold save
  rw [Run.bind_of_ok hresource, hfailure]
  rcases begin_outcomes hname hchild (noteResource "Saving resource" c w) with
    ⟨fault, hfailed⟩ | ⟨u, hmake, hfree, hbegun⟩
  · exact .inl ⟨fault, _, Run.bind_of_error hfailed, Run.failure?_of_error hfailed⟩
  rw [hmake] at hstreams hhandles
  -- the file is empty now, and its content is asked for
  obtain ⟨bytes, hbytes⟩ :=
    hcontent (u.put (u.spotIn l name) []) ((streams_put u _ []).trans hstreams)
  rcases hasked : content (u.put (u.spotIn l name) []) with ⟨o, v⟩
  rw [hasked] at hbytes
  cases hbytes
  have hread := hreads.of_eq hasked
  have hlike : LikeAt l u v :=
    (likeAt_put hname hfree []).trans (.of_same l hread.disk hread.memory)
  have hwritten := likeAt_put hname (hlike.isFree hfree) bytes
  rw [hlike.spotIn] at hwritten
  rw [Run.bind_of_ok hbegun, Run.bind_of_ok hasked]
  refine .inr ⟨Run.failure?_of_ok hbegun, _, rfl, ?_, fun other hother => ?_⟩
  · rw [handles_put, hread.handles, handles_put]
    exact hhandles
  · exact (hindrance?_of_makeWay hname hchild hmake (hlike.trans hwritten) hother).trans
      (hnoted.hindrance? other hother)

end Save

end Workspace

end IndexChain
