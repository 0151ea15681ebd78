import IndexChain.Proofs.Growth.Disk
import IndexChain.Proofs.Growth.Memory
import IndexChain.Proofs.Workspace

/-!
# Growing workspaces — what storing chunks leaves, however it ends

Storing a chunk may fail before its file is emptied, while its content is asked for, or not at all.
In every case **the stores have only grown towards the location of the copy** (`save_grows`), which
is a preorder, so it holds of any number of chunks: no file has changed but chunks of the copy
(`Grows.file?_eq`).

Until the file is emptied no file has changed (`Prepares`). Content that is at hand is stored as
soon as that is done, so a failure to store it has come before (`save_prepares_of_error`).
-/

namespace IndexChain

namespace Workspace

/-! ## 1. Workspaces that have grown -/

/-- Chunks of the copy at a location may have changed, and directories were made on the way to
it. -/
def StoresGrow : Location → Workspace → Workspace → Prop
  | .disk path, w, w' => Disk.Grows path w.disk w'.disk ∧ w'.memory = w.memory
  | .memory path, w, w' => w'.disk = w.disk ∧ Memory.Grows path w.memory w'.memory

/-- The stores have grown, and handles lead where they led. -/
structure Grows (l : Location) (w w' : Workspace) : Prop where
  stores : StoresGrow l w w'
  locationOf? : ∀ h k, w.locationOf? h = some k → w'.locationOf? h = some k

section Grows

variable {l c : Location} {u v w w' : Workspace} {name : Text} {paths : List Text}

namespace Grows

/-- The stores are as they were. -/
theorem of_same (l : Location) (hdisk : w'.disk = w.disk) (hmemory : w'.memory = w.memory)
    (hlocation : ∀ h k, w.locationOf? h = some k → w'.locationOf? h = some k) : Grows l w w' := by
  refine ⟨?_, hlocation⟩
  cases l with
  | disk path =>
    refine ⟨?_, hmemory⟩
    rw [hdisk]
    exact .refl path w.disk
  | memory path =>
    refine ⟨hdisk, ?_⟩
    rw [hmemory]
    exact .refl path w.memory

theorem of_untouched (l : Location) (h : Untouched paths w w') : Grows l w w' :=
  of_same l h.disk h.memory h.locationOf?

theorem refl (l : Location) (w : Workspace) : Grows l w w := of_untouched l (.refl w)

theorem trans (h : Grows l u v) (h' : Grows l v w) : Grows l u w := by
  refine ⟨?_, fun i k hk => h'.locationOf? i k (h.locationOf? i k hk)⟩
  have hs := h.stores
  have hs' := h'.stores
  cases l with
  | disk path => exact ⟨hs.1.trans hs'.1, hs'.2.trans hs.2⟩
  | memory path => exact ⟨hs'.1.trans hs.1, hs.2.trans hs'.2⟩

/-- Steps that follow and do not touch the stores change nothing about it. -/
theorem bind {α β : Type} {x : Run Workspace α} {f : α → Run Workspace β} (hx : Grows l w (x w).2)
    (hf : ∀ a, Run.Within (Untouched []) (f a)) : Grows l w ((x >>= f) w).2 := by
  rcases h : x w with ⟨fault | a, u⟩
  · rw [Run.bind_of_error h]
    rwa [h] at hx
  · rw [Run.bind_of_ok h]
    rw [h] at hx
    exact hx.trans (of_untouched l (hf a u))

/-- **No file has changed that is not a chunk of the copy.** -/
theorem file?_eq (h : Grows l w w') {spot : Spot}
    (hspot : ∀ name, IsChunkName name → spot ≠ w.spotIn l name) : w'.file? spot = w.file? spot := by
  have hs := h.stores
  cases l with
  | disk path =>
    obtain ⟨hdisk, hmemory⟩ := hs
    cases spot with
    | disk q =>
      have hchunk : ¬w.disk.IsChunk path q := by
        rintro ⟨name, hname, rfl⟩
        exact hspot name hname rfl
      simp only [Workspace.file?, Disk.file?]
      rcases hdisk.other q hchunk with hsame | ⟨hnone, hmade, -⟩
      · rw [hsame]
      · -- a directory was made there
        rw [hnone, hmade]
    | memory q => simp only [Workspace.file?, hmemory]
  | memory path =>
    obtain ⟨hdisk, hmemory⟩ := hs
    cases spot with
    | disk q => simp only [Workspace.file?, hdisk]
    | memory q =>
      refine hmemory.file? q fun name hname heq => ?_
      exact hspot name hname (congrArg Spot.memory heq)

end Grows

/-- What may have come of storing some resources before a file is emptied: the stores have grown,
    and **no file has changed**. -/
structure Prepares (l : Location) (names : List Text) (w w' : Workspace) : Prop where
  grows : Grows l w w'
  writes : Writes (fun _ => False) (l.pathsBelow names) w w'

namespace Prepares

variable {names names' : List Text}

theorem of_untouched (l : Location) (h : Untouched [] w w') : Prepares l [] w w' :=
  ⟨.of_untouched l h, h.writes _⟩

theorem append (h : Prepares l names u v) (h' : Prepares l names' v w) :
    Prepares l (names ++ names') u w := by
  refine ⟨h.grows.trans h'.grows, ?_⟩
  rw [Location.pathsBelow_append]
  exact h.writes.append h'.writes

end Prepares

/-! ## 2. Storing -/

theorem onDisk_grows {α : Type} {path : DiskPath} {step : Run Disk α}
    (h : Disk.Grows path w.disk (step w.disk).2) : Grows (.disk path) w (onDisk step w).2 :=
  ⟨⟨h, rfl⟩, fun _ _ hk => hk⟩

theorem onMemory_grows {α : Type} {path : MemoryPath} {step : Run Memory α}
    (h : Memory.Grows path w.memory (step w.memory).2) :
    Grows (.memory path) w (onMemory step w).2 :=
  ⟨⟨rfl, h⟩, fun _ _ hk => hk⟩

/-- Making the directories above a file. -/
def makeWay : Location → Run Workspace Unit
  | .disk path => onDisk (Disk.ensureDirectories path.parent)
  | .memory path => onMemory (Memory.ensureDirectories path.parent)

/-- Emptying a file; what is answered writes it. -/
def empty : Location → Run Workspace (Bytes → Workspace → Workspace)
  | .disk path => do
    let place ← onDisk (Disk.truncate path)
    return fun content w => { w with disk := w.disk.put place content }
  | .memory path => do
    onMemory (Memory.truncate path.place)
    return fun content w => { w with memory := w.memory.put path.place content }

theorem begin_eq (c : Location) : begin c = makeWay c >>= fun _ => empty c := by
  cases c <;> rfl

/-- A resource is in the store of its location. -/
theorem exists_of_child (hc : l.child name = .ok c) :
    (∃ path, l = .disk path ∧ c = .disk (path.child name)) ∨
      ∃ path, l = .memory path ∧ c = .memory (path.child name) := by
  unfold Location.child at hc
  split at hc
  · exact .inl ⟨_, rfl, (Except.ok.inj hc).symm⟩
  · cases hc
  · exact .inr ⟨_, rfl, (Except.ok.inj hc).symm⟩
  · split at hc
    · exact .inr ⟨_, rfl, (Except.ok.inj hc).symm⟩
    · cases hc

theorem makeWay_grows (hname : name.IsPlain) (hc : l.child name = .ok c) :
    Run.Within (Grows l) (makeWay c) := by
  intro w
  obtain ⟨path, rfl, rfl⟩ | ⟨path, rfl, rfl⟩ := exists_of_child hc
  · have hparent : (path.child name).parent = path := by
      rw [DiskPath.child_of_isPlain path hname, DiskPath.parent, List.dropLast_concat]
    show Grows (.disk path) w (onDisk (Disk.ensureDirectories (path.child name).parent) w).2
    rw [hparent]
    exact onDisk_grows (Disk.ensureDirectories_grows path w.disk)
  · exact onMemory_grows (Memory.ensureDirectories_grows hname w.memory)

theorem makeWay_writes (P : Spot → Prop) (c : Location) : Run.Within (Writes P []) (makeWay c) := by
  intro w
  cases c with
  | disk path => exact ensureDirectories_writes rfl
  | memory path => exact ensureMemoryDirectories_writes rfl

theorem streams_makeWay (c : Location) (w : Workspace) : (makeWay c w).2.streams = w.streams := by
  cases c <;> rfl

/-- No directory is where a file is to be. -/
def IsFree (w : Workspace) : Spot → Prop
  | .disk place => w.disk.entry? place ≠ some .directory
  | .memory _ => True

/-- Emptying a file fails and does nothing, or it is done where no directory is. -/
theorem empty_cases (c : Location) (w : Workspace) :
    (∃ fault, empty c w = (.error fault, w)) ∨
      w.IsFree (c.spot w.disk.workplace) ∧
        empty c w = (.ok fun bytes u => u.put (c.spot w.disk.workplace) bytes,
          w.put (c.spot w.disk.workplace) []) := by
  cases c with
  | disk path =>
    rcases Disk.truncate_cases path w.disk with ⟨fault, htruncate⟩ | ⟨hfree, htruncate⟩
    · have hstep : onDisk (Disk.truncate path) w = (.error fault, w) := by
        simp only [onDisk, htruncate]
      exact .inl ⟨fault, Run.bind_of_error hstep⟩
    · have hstep : onDisk (Disk.truncate path) w = (.ok (path.placeFrom w.disk.workplace),
          { w with disk := w.disk.put (path.placeFrom w.disk.workplace) [] }) := by
        simp only [onDisk, htruncate]
      exact .inr ⟨hfree, Run.bind_of_ok hstep⟩
  | memory path =>
    cases hobstacle : w.memory.obstacle? path.place with
    | some fault =>
      have hstep : onMemory (Memory.truncate path.place) w = (.error fault, w) := by
        simp only [onMemory, Memory.truncate, hobstacle]
      exact .inl ⟨fault, Run.bind_of_error hstep⟩
    | none =>
      have hstep : onMemory (Memory.truncate path.place) w =
          (.ok (), { w with memory := w.memory.put path.place [] }) := by
        simp only [onMemory, Memory.truncate, hobstacle]
      exact .inr ⟨trivial, Run.bind_of_ok hstep⟩

/-- Writing a chunk where no directory is. -/
theorem put_grows (hname : IsChunkName name) (hfree : w.IsFree (w.spotIn l name))
    (content : Bytes) : Grows l w (w.put (w.spotIn l name) content) := by
  cases l with
  | disk path => exact ⟨⟨Disk.put_grows hname hfree content, rfl⟩, fun _ _ hk => hk⟩
  | memory path => exact ⟨⟨rfl, Memory.put_grows hname w.memory content⟩, fun _ _ hk => hk⟩

theorem IsFree.of_disk_eq {spot : Spot} (hfree : w.IsFree spot) (h : w'.disk = w.disk) :
    w'.IsFree spot := by
  cases spot with
  | disk place =>
    unfold IsFree at hfree ⊢
    rwa [h]
  | memory place => trivial

theorem isFree_put {spot : Spot} (hspot : spot ≠ .disk []) (content : Bytes) :
    (w.put spot content).IsFree spot := by
  cases spot with
  | disk place =>
    show Disk.entry? _ place ≠ _
    rw [put, Disk.put, Disk.entry?_set _ fun h => hspot (congrArg Spot.disk h), if_pos rfl]
    intro heq
    cases heq
  | memory place => trivial

/-- Beginning a file fails and leaves the way to it at most, or empties it where no directory is. -/
theorem begin_outcomes (hname : name.IsPlain) (hc : l.child name = .ok c) (w : Workspace) :
    (∃ fault, begin c w = (.error fault, (makeWay c w).2)) ∨
      ∃ u, makeWay c w = (.ok (), u) ∧ u.IsFree (u.spotIn l name) ∧
        begin c w = (.ok fun bytes v => v.put (u.spotIn l name) bytes,
          u.put (u.spotIn l name) []) := by
  rw [begin_eq]
  rcases hmake : makeWay c w with ⟨fault | ⟨⟩, u⟩
  · exact .inl ⟨fault, Run.bind_of_error hmake⟩
  · have hspot : c.spot u.disk.workplace = u.spotIn l name := by
      obtain ⟨c', hc', hspot⟩ := l.exists_child u.disk.workplace hname
      obtain rfl := Except.ok.inj (hc.symm.trans hc')
      exact hspot
    rw [Run.bind_of_ok hmake]
    rcases empty_cases c u with ⟨fault, hempty⟩ | ⟨hfree, hempty⟩
    · exact .inl ⟨fault, hempty⟩
    · rw [hspot] at hfree hempty
      exact .inr ⟨u, rfl, hfree, hempty⟩

/-- Beginning to store fails, or it has made way for the file and emptied it. -/
theorem begin_cases (hname : name.IsPlain) (hc : l.child name = .ok c) (w : Workspace) :
    (∃ fault w', begin c w = (.error fault, w') ∧ Prepares l [] w w') ∨
      ∃ u, Prepares l [] w u ∧ u.streams = w.streams ∧ u.IsFree (u.spotIn l name) ∧
        begin c w = (.ok fun bytes v => v.put (u.spotIn l name) bytes,
          u.put (u.spotIn l name) []) := by
  have hway : Prepares l [] w (makeWay c w).2 := ⟨makeWay_grows hname hc w, makeWay_writes _ c w⟩
  have hstreams := streams_makeWay c w
  rcases begin_outcomes hname hc w with ⟨fault, hbegin⟩ | ⟨u, hmake, hfree, hbegin⟩
  · exact .inl ⟨fault, _, hbegin, hway⟩
  · rw [hmake] at hway hstreams
    exact .inr ⟨u, hway, hstreams, hfree, hbegin⟩

section Save

variable {h : HandleId} {content : Run Workspace Bytes}

/-- Storing fails before the file is emptied, or asks for the content after that. -/
theorem save_cases (hname : name.IsPlain) (hl : w.locationOf? h = some l)
    (content : Run Workspace Bytes) :
    (∃ fault w' tried, save h name content w = (.error fault, w') ∧ tried <+: [name] ∧
        Prepares l tried w w') ∨
      ∃ u, Prepares l [name] w u ∧ u.streams = w.streams ∧ u.IsFree (u.spotIn l name) ∧
        save h name content w =
          (content >>= fun bytes => Run.change fun v => v.put (u.spotIn l name) bytes)
            (u.put (u.spotIn l name) []) := by
  unfold save
  rcases hresource : resource h name "Saving resource" w with ⟨fault | c, w₁⟩
  · obtain rfl := resource_eq_error hresource
    exact .inl ⟨fault, w₁, [], Run.bind_of_error hresource, List.nil_prefix,
      .of_untouched l (.refl w₁)⟩
  · obtain ⟨hchild, -, rfl⟩ := resource_eq_ok hname hl hresource
    have hnoted : Prepares l [name] w (noteResource "Saving resource" c w) :=
      ⟨.of_untouched l (note_untouched _ w), saving_writes _ hchild w⟩
    rw [Run.bind_of_ok hresource]
    rcases begin_cases hname hchild (noteResource "Saving resource" c w) with
      ⟨fault, w₂, hbegin, hprepares⟩ | ⟨u, hprepares, hstreams, hfree, hbegin⟩
    · exact .inl ⟨fault, w₂, [name], Run.bind_of_error hbegin, List.prefix_rfl,
        hnoted.append hprepares⟩
    · exact .inr ⟨u, hnoted.append hprepares, hstreams, hfree, Run.bind_of_ok hbegin⟩

/-- **Storing a chunk makes the stores grow, however it ends.** -/
theorem save_grows (hname : IsChunkName name) (hl : w.locationOf? h = some l)
    (hcontent : Run.Within (Untouched []) content) : Grows l w (save h name content w).2 := by
  rcases save_cases hname.isPlain hl content with
    ⟨fault, w', tried, hsave, -, hprepares⟩ | ⟨u, hprepares, -, hfree, hsave⟩
  · rw [hsave]
    exact hprepares.grows
  -- the file is empty now, whatever comes of the content
  rw [hsave]
  have hroot := spotIn_ne_root u l name
  have hemptied := hprepares.grows.trans (put_grows hname hfree [])
  have hasked := hcontent (u.put (u.spotIn l name) [])
  rcases hbytes : content (u.put (u.spotIn l name) []) with ⟨fault | bytes, v⟩
  · rw [hbytes] at hasked
    rw [Run.bind_of_error hbytes]
    exact hemptied.trans (.of_untouched l hasked)
  · rw [hbytes] at hasked
    rw [Run.bind_of_ok hbytes, Run.change_apply]
    have hspot : v.spotIn l name = u.spotIn l name :=
      ((put_writes hroot []).append (hasked.writes _)).spotIn l name
    have hfree' : v.IsFree (v.spotIn l name) := by
      rw [hspot]
      exact (isFree_put hroot []).of_disk_eq hasked.disk
    rw [← hspot]
    exact hemptied.trans ((Grows.of_untouched l hasked).trans (put_grows hname hfree' bytes))

/-- Storing fails before the file is emptied, or it is the content that fails. -/
theorem save_eq_error {content : Run Workspace Bytes} {fault : Fault} (hname : name.IsPlain)
    (hl : w.locationOf? h = some l) (hsave : save h name content w = (.error fault, w')) :
    (∃ tried, tried <+: [name] ∧ Prepares l tried w w') ∨
      ∃ u, u.streams = w.streams ∧ content u = (.error fault, w') := by
  rcases save_cases hname hl content with ⟨fault', u, tried, heq, htried, hprepares⟩ |
    ⟨u, -, hstreams, -, heq⟩
  · cases heq.symm.trans hsave
    exact .inl ⟨tried, htried, hprepares⟩
  · rw [heq] at hsave
    refine .inr ⟨_, (streams_put u (u.spotIn l name) []).trans hstreams, ?_⟩
    rcases hcontent : content (u.put (u.spotIn l name) []) with ⟨fault' | bytes, v⟩
    · rw [Run.bind_of_error hcontent] at hsave
      cases hsave
      rfl
    · rw [Run.bind_of_ok hcontent] at hsave
      cases hsave

/-- Storing content that is known fails before any file is changed. -/
theorem save_prepares_of_error {bytes : Bytes} {fault : Fault} (hname : name.IsPlain)
    (hl : w.locationOf? h = some l) (hsave : save h name (Run.done bytes) w = (.error fault, w')) :
    ∃ tried, tried <+: [name] ∧ Prepares l tried w w' := by
  rcases save_eq_error hname hl hsave with hprepares | ⟨u, -, hcontent⟩
  · exact hprepares
  · cases hcontent

end Save

end Grows

end Workspace

end IndexChain
