import IndexChain.Proofs.Delivery
import IndexChain.Proofs.Storage
import IndexChain.Workspace

/-!
# Workspaces — which files an operation changes

Whatever a command does is told here by the files that it may change and by the paths that it
stored: **`Writes P paths` says that all other files, and where locations and handles lead, are as
they were, and that `paths` were stored, in this order**. Most operations do not touch the stores at
all (`Untouched`). Either relation is a preorder if there is no path, so it passes through all that
is made of the operations.

What is printed is told apart (`Quiet`), and most operations do neither, store nor print (`Still`).
Before its end a session does even less (`Reads`).

Three operations have more to say when they succeed: opening finds the file (`fetch_eq_ok`), reading
yields what is in it (`read_eq_ok`), and storing empties the file first, asks for the content next
and leaves it in the file at last (`save_eq_ok`). What is read while the file is empty is the point
of the last one.
-/

namespace IndexChain.Workspace

/-! ## 1. Files and handles -/

/-- The content of a file, if there is one. -/
def file? (w : Workspace) : Spot → Option Bytes
  | .disk place => w.disk.file? place
  | .memory place => w.memory.file? place

/-- The location to which a handle gives access. -/
def locationOf? (w : Workspace) (h : HandleId) : Option Location :=
  w.handles[h]?.map Handle.location

/-- The file of a name in the folder of a location. -/
def spotIn (w : Workspace) (l : Location) (name : Text) : Spot :=
  (l.folder w.disk.workplace).spot name

/-- Opens a stream from a location. -/
def openStream (location : Location) : Run Workspace StreamId := fun w =>
  match w.sourceOf location with
  | .error fault => (.error fault, w)
  | .ok source => (.ok w.streams.length, { w with streams := w.streams ++ [{ source }] })

theorem fetch_eq (h : HandleId) (name : Text) :
    fetch h name = resource h name "Opening resource" >>= openStream := rfl

/-- The path that a log record says is being stored. -/
def storedPath? (r : Record) : Option Text :=
  if r.logger = "maven_index_sync.resources" ∧ r.event = "Saving resource" then
    match Pairs.get? (Text.ofString "path") r.fields with
    | some (.text path) => some path
    | _ => none
  else none

/-- The paths that were stored, the first one first. -/
def storedPaths (w : Workspace) : List Text := w.journal.filterMap storedPath?

theorem storedPath?_ofPart {level : Level} {part event : String} {fields : List (Text × Value)}
    (h : part ∈ Depots.parts) : storedPath? (.ofPart level part event fields) = none := by
  have hlogger : ∀ part ∈ Depots.parts, Record.loggerRoot ++ "." ++ Text.ofString part ≠
      "maven_index_sync.resources" := by decide
  exact if_neg fun hr => hlogger part h hr.1

theorem storedPath?_opening (path : Text) :
    storedPath? (.ofPart .debug "resources" "Opening resource" [("path", .text path)]) = none := by
  have hevent : Text.ofString "Opening resource" ≠ "Saving resource" := by decide
  exact if_neg fun hr => hevent hr.2

theorem storedPath?_saving (path : Text) :
    storedPath? (.ofPart .debug "resources" "Saving resource" [("path", .text path)]) =
      some path := by
  have hlogger : Record.loggerRoot ++ "." ++ Text.ofString "resources" =
      "maven_index_sync.resources" := by decide
  exact if_pos ⟨hlogger, rfl⟩

/-- Only some files may have changed, and some paths were stored, one after the other. -/
structure Writes (P : Spot → Prop) (paths : List Text) (w w' : Workspace) : Prop where
  workplace : w'.disk.workplace = w.disk.workplace
  locationOf? : ∀ h l, w.locationOf? h = some l → w'.locationOf? h = some l
  file? : ∀ spot, ¬P spot → w'.file? spot = w.file? spot
  storedPaths : w'.storedPaths = w.storedPaths ++ paths

namespace Writes

variable {P Q : Spot → Prop} {paths paths' : List Text} {u v w w' : Workspace}

theorem refl (P : Spot → Prop) (w : Workspace) : Writes P [] w w :=
  ⟨rfl, fun _ _ h => h, fun _ _ => rfl, (List.append_nil _).symm⟩

theorem append (h : Writes P paths u v) (h' : Writes P paths' v w) :
    Writes P (paths ++ paths') u w :=
  ⟨h'.workplace.trans h.workplace, fun i l hl => h'.locationOf? i l (h.locationOf? i l hl),
    fun spot hspot => (h'.file? spot hspot).trans (h.file? spot hspot),
    by rw [h'.storedPaths, h.storedPaths, List.append_assoc]⟩

theorem trans (u v w : Workspace) (h : Writes P [] u v) (h' : Writes P [] v w) : Writes P [] u w :=
  h.append h'

theorem mono (hPQ : ∀ spot, P spot → Q spot) (h : Writes P paths w w') : Writes Q paths w w' :=
  ⟨h.workplace, h.locationOf?, fun spot hspot => h.file? spot fun hP => hspot (hPQ spot hP),
    h.storedPaths⟩

theorem spotIn (h : Writes P paths w w') (l : Location) (name : Text) :
    w'.spotIn l name = w.spotIn l name := by
  unfold Workspace.spotIn
  rw [h.workplace]

end Writes

/-- Nothing changed in the stores nor where handles lead, and some paths were said to be stored. -/
structure Untouched (paths : List Text) (w w' : Workspace) : Prop where
  disk : w'.disk = w.disk
  memory : w'.memory = w.memory
  locationOf? : ∀ h l, w.locationOf? h = some l → w'.locationOf? h = some l
  storedPaths : w'.storedPaths = w.storedPaths ++ paths

namespace Untouched

variable {paths : List Text} {u v w w' : Workspace}

theorem refl (w : Workspace) : Untouched [] w w :=
  ⟨rfl, rfl, fun _ _ h => h, (List.append_nil _).symm⟩

theorem trans (u v w : Workspace) (h : Untouched [] u v) (h' : Untouched [] v w) :
    Untouched [] u w :=
  ⟨h'.disk.trans h.disk, h'.memory.trans h.memory,
    fun i l hl => h'.locationOf? i l (h.locationOf? i l hl),
    by rw [h'.storedPaths, h.storedPaths, List.append_nil]⟩

/-- The handles and the log are as they were, too. -/
theorem of_eq (hdisk : w'.disk = w.disk) (hmemory : w'.memory = w.memory)
    (hhandles : w'.handles = w.handles) (hjournal : w'.journal = w.journal) :
    Untouched [] w w' := by
  refine ⟨hdisk, hmemory, fun h l hl => ?_, ?_⟩
  · unfold Workspace.locationOf? at hl ⊢
    rw [hhandles, hl]
  · unfold Workspace.storedPaths
    rw [hjournal, List.append_nil]

theorem writes (P : Spot → Prop) (h : Untouched paths w w') : Writes P paths w w' := by
  refine ⟨by rw [h.disk], h.locationOf?, fun spot _ => ?_, h.storedPaths⟩
  cases spot <;> simp only [Workspace.file?, h.disk, h.memory]

end Untouched

/-- Only the files of some names in the folder of a location may have changed; they were stored one
    after the other, in this order. -/
def Stores (l : Location) (names : List Text) (w w' : Workspace) : Prop :=
  Writes (fun spot => ∃ name ∈ names, spot = w.spotIn l name) (l.pathsBelow names) w w'

namespace Stores

variable {l : Location} {name : Text} {names names' : List Text} {u v w w' : Workspace}

theorem of_stay (h : Writes (fun _ => False) [] w w') : Stores l [] w w' :=
  h.mono fun _ => False.elim

theorem of_eq_spot (h : Writes (· = w.spotIn l name) (l.pathsBelow [name]) w w') :
    Stores l [name] w w' := h.mono fun _ h => ⟨name, List.mem_singleton_self name, h⟩

theorem append (h : Stores l names u v) (h' : Stores l names' v w) :
    Stores l (names ++ names') u w := by
  unfold Stores
  rw [Location.pathsBelow_append]
  refine Writes.append (h.mono ?_) (h'.mono ?_)
  · rintro _ ⟨name, hname, heq⟩
    exact ⟨name, List.mem_append_left names' hname, heq⟩
  · rintro _ ⟨name, hname, heq⟩
    exact ⟨name, List.mem_append_right names hname, heq.trans (Writes.spotIn h l name)⟩

end Stores

/-! ## 2. Operations that leave the stores alone -/

theorem storedPaths_note (r : Record) (w : Workspace) :
    (w.note r).storedPaths = w.storedPaths ++ (storedPath? r).toList := by
  unfold storedPaths note
  rw [List.filterMap_append]
  cases h : storedPath? r <;> simp [h]

theorem note_untouched (r : Record) (w : Workspace) :
    Untouched (storedPath? r).toList w (w.note r) :=
  ⟨rfl, rfl, fun _ _ h => h, storedPaths_note r w⟩

theorem note_untouched_of_none {r : Record} (h : storedPath? r = none) (w : Workspace) :
    Untouched [] w (w.note r) := by
  have hnote := note_untouched r w
  rw [h] at hnote
  exact hnote

theorem print_untouched (line : Text) : Run.Within (Untouched []) (print line) := fun _ =>
  .of_eq rfl rfl rfl rfl

theorem openHandle_untouched (l : Location) : Run.Within (Untouched []) (openHandle l) := by
  intro w
  refine ⟨rfl, rfl, fun h l' hl => ?_, (List.append_nil _).symm⟩
  unfold locationOf? at hl ⊢
  obtain ⟨handle, hhandle, rfl⟩ := Option.map_eq_some_iff.mp hl
  have hmem : (w.handles ++ [{ location := l }])[h]? = some handle := by
    rw [List.getElem?_append_left (List.getElem?_eq_some_iff.mp hhandle).1, hhandle]
  simp only [openHandle, hmem, Option.map_some]

theorem closeHandle_untouched (h : HandleId) : Run.Within (Untouched []) (closeHandle h) := by
  intro w
  simp only [closeHandle, Run.change_apply]
  split
  · exact .refl w
  rename_i handle hhandle
  refine ⟨rfl, rfl, fun h' l hl => ?_, (List.append_nil _).symm⟩
  unfold locationOf? at hl ⊢
  by_cases heq : h = h'
  · subst heq
    rw [hhandle] at hl
    simp only [List.getElem?_set_self (List.getElem?_eq_some_iff.mp hhandle).1]
    exact hl
  · simp only [List.getElem?_set_ne heq]
    exact hl

theorem opening_untouched (h : HandleId) (name : Text) :
    Run.Within (Untouched []) (resource h name "Opening resource") := by
  intro w
  unfold resource
  split
  · exact .refl w
  split
  · exact .refl w
  split
  · exact .refl w
  · exact note_untouched_of_none (storedPath?_opening _) w

theorem openStream_untouched (location : Location) :
    Run.Within (Untouched []) (openStream location) := by
  intro w
  unfold openStream
  split
  · exact .refl w
  · exact .of_eq rfl rfl rfl rfl

theorem fetch_untouched (h : HandleId) (name : Text) : Run.Within (Untouched []) (fetch h name) :=
  .bind Untouched.trans (opening_untouched h name) openStream_untouched

theorem read_untouched (i : StreamId) (size : Option Nat) :
    Run.Within (Untouched []) (read i size) := by
  intro w
  unfold read
  split
  · exact .refl w
  split
  · exact .refl w
  · exact .of_eq rfl rfl rfl rfl

theorem shut_untouched (i : StreamId) : Run.Within (Untouched []) (shut i) := by
  intro w
  simp only [shut, Run.change_apply]
  split
  · exact .refl w
  · exact .of_eq rfl rfl rfl rfl

/-- **Nothing that a session does before its end touches the stores.** -/
theorem stayWithin_untouched (remote : HandleId) (copy : Option HandleId) :
    (depots remote copy).StayWithin (Untouched []) where
  refl := .refl
  trans := Untouched.trans
  fetch side name := by
    cases side with
    | remote => exact fetch_untouched remote name
    | copy =>
      cases copy with
      | none => exact Untouched.refl
      | some h => exact fetch_untouched h name
  read := read_untouched
  shut := shut_untouched
  note _ _ w h := note_untouched_of_none (storedPath?_ofPart h) w

/-- Opening and closing handles, and what a session does before its end, relate the workspaces
    before and after them by a preorder. -/
structure LooksWithin (Q : Workspace → Workspace → Prop) : Prop where
  session : ∀ remote copy, (depots remote copy).StayWithin Q
  openHandle : ∀ l, Run.Within Q (openHandle l)
  closeHandle : ∀ h, Run.Within Q (closeHandle h)

namespace LooksWithin

variable {Q : Workspace → Workspace → Prop}

theorem refl (hQ : LooksWithin Q) (w : Workspace) : Q w w := (hQ.session 0 none).refl w

theorem trans (hQ : LooksWithin Q) (u v w : Workspace) (h : Q u v) (h' : Q v w) : Q u w :=
  (hQ.session 0 none).trans u v w h h'

theorem release (hQ : LooksWithin Q) (remote : HandleId) (copy : Option HandleId) (side : Side) :
    Run.Within Q ((depots remote copy).release side) := by
  cases side with
  | remote => exact hQ.closeHandle remote
  | copy =>
    cases copy with
    | none => exact hQ.refl
    | some h => exact hQ.closeHandle h

end LooksWithin

theorem looksWithin_untouched : LooksWithin (Untouched []) :=
  ⟨stayWithin_untouched, openHandle_untouched, closeHandle_untouched⟩

theorem release_untouched (remote : HandleId) (copy : Option HandleId) (side : Side) :
    Run.Within (Untouched []) ((depots remote copy).release side) :=
  looksWithin_untouched.release remote copy side

/-! ### No file is changed -/

section Within

variable (P : Spot → Prop)

theorem print_within (line : Text) : Run.Within (Writes P []) (print line) := fun w =>
  (print_untouched line w).writes P

theorem closeHandle_within (h : HandleId) : Run.Within (Writes P []) (closeHandle h) := fun w =>
  (closeHandle_untouched h w).writes P

theorem fetch_within (h : HandleId) (name : Text) :
    Run.Within (Writes P []) (fetch h name) := fun w =>
  (fetch_untouched h name w).writes P

theorem read_within (i : StreamId) (size : Option Nat) :
    Run.Within (Writes P []) (read i size) := fun w =>
  (read_untouched i size w).writes P

/-- **Nothing that a session does before its end changes a file.** -/
theorem stayWithin (remote : HandleId) (copy : Option HandleId) :
    (depots remote copy).StayWithin (Writes P []) :=
  (stayWithin_untouched remote copy).mono (.refl P) Writes.trans fun h => h.writes P

theorem release_within (remote : HandleId) (copy : Option HandleId) (side : Side) :
    Run.Within (Writes P []) ((depots remote copy).release side) := fun w =>
  (release_untouched remote copy side w).writes P

end Within

/-! ## 3. Opening and reading -/

theorem file?_note (w : Workspace) (r : Record) (spot : Spot) :
    (w.note r).file? spot = w.file? spot := by
  cases spot <;> rfl

/-- What is logged about a resource. -/
def noteResource (event : String) (location : Location) (w : Workspace) : Workspace :=
  w.note (.ofPart .debug "resources" event [("path", .text location.text)])

theorem openHandle_eq_ok {l : Location} {w w' : Workspace} {h : HandleId}
    (hopen : openHandle l w = (.ok h, w')) : w'.locationOf? h = some l := by
  cases hopen
  simp [locationOf?]

/-- A plain name is looked up in the folder of the handle's location. -/
theorem resource_eq_ok {h : HandleId} {name : Text} {event : String} {w w' : Workspace}
    {l c : Location} (hname : name.IsPlain) (hl : w.locationOf? h = some l)
    (hresource : resource h name event w = (.ok c, w')) :
    l.child name = .ok c ∧ c.spot w.disk.workplace = w.spotIn l name ∧
    w' = noteResource event c w := by
  obtain ⟨handle, hhandle, rfl⟩ := Option.map_eq_some_iff.mp hl
  obtain ⟨c', hchild, hspot⟩ := handle.location.exists_child w.disk.workplace hname
  unfold resource at hresource
  rw [hhandle] at hresource
  simp only [hchild] at hresource
  split at hresource
  · cases hresource
  · cases hresource
    exact ⟨hchild, hspot, rfl⟩

theorem resource_eq_error {h : HandleId} {name : Text} {event : String} {w w' : Workspace}
    {fault : Fault} (hresource : resource h name event w = (.error fault, w')) : w' = w := by
  unfold resource at hresource
  split at hresource
  · exact (Prod.mk.inj hresource).2.symm
  split at hresource
  · exact (Prod.mk.inj hresource).2.symm
  split at hresource
  · exact (Prod.mk.inj hresource).2.symm
  · cases hresource

/-- What a stream yields that was opened on a file when that held `opened`, if the file now holds
`now`. -/
def yields (opened now : Bytes) : Spot → Bytes
  | .disk _ => now
  | .memory _ => opened

theorem yields_self (content : Bytes) (spot : Spot) : yields content content spot = content := by
  cases spot <;> rfl

/-- A stream that was just opened on a file. On the disk it reads the place, and in memory a content
    of its own. -/
structure Opens (spot : Spot) (content : Bytes) (s : Stream) : Prop where
  isOpen : s.closed = false
  position : s.position = 0
  source : s.source = match spot with
    | .disk place => .disk place
    | .memory _ => .memory content

theorem Opens.held {spot : Spot} {content now : Bytes} {s : Stream} {w : Workspace}
    (h : Opens spot content s) (hnow : w.file? spot = some now) :
    w.held s.source = yields content now spot := by
  rw [h.source]
  cases spot with
  | disk place => exact Disk.contentAt_of_file? hnow
  | memory place => rfl

theorem openStream_eq_ok {location : Location} {w w' : Workspace} {i : StreamId}
    (h : openStream location w = (.ok i, w')) :
    ∃ content s, w.file? (location.spot w.disk.workplace) = some content ∧
      w'.streams[i]? = some s ∧ Opens (location.spot w.disk.workplace) content s := by
  unfold openStream at h
  split at h
  · cases h
  rename_i source hsource
  cases h
  have hstream : (w.streams ++ [({ source } : Stream)])[w.streams.length]? = some { source } :=
    List.getElem?_concat_length
  -- a stream from the disk reads the place, one from memory a content of its own
  cases location with
  | disk path =>
    rcases hopen : w.disk.openFile path with fault | place
    · simp [sourceOf, hopen, Except.map] at hsource
    · simp only [sourceOf, hopen, Except.map, Except.ok.injEq] at hsource
      subst hsource
      obtain ⟨rfl, content, hcontent⟩ := Disk.openFile_eq_ok hopen
      exact ⟨content, _, hcontent, hstream, rfl, rfl, rfl⟩
  | memory path =>
    rcases hread : w.memory.readFile path.place with fault | content
    · simp [sourceOf, hread, Except.map] at hsource
    · simp only [sourceOf, hread, Except.map, Except.ok.injEq] at hsource
      subst hsource
      exact ⟨content, _, Memory.readFile_eq_ok hread, hstream, rfl, rfl, rfl⟩

/-- **Opening a resource finds the file of its name in the folder of the location.** -/
theorem fetch_eq_ok {h : HandleId} {name : Text} {w w' : Workspace} {i : StreamId} {l : Location}
    (hname : name.IsPlain) (hl : w.locationOf? h = some l) (hfetch : fetch h name w = (.ok i, w')) :
    ∃ content s, w.file? (w.spotIn l name) = some content ∧ w'.streams[i]? = some s ∧
      Opens (w.spotIn l name) content s := by
  rw [fetch_eq] at hfetch
  obtain ⟨c, w₁, hresource, hopen⟩ := Run.bind_eq_ok_iff.mp hfetch
  obtain ⟨-, hspot, rfl⟩ := resource_eq_ok hname hl hresource
  obtain ⟨content, s, hcontent, hstream, hopens⟩ := openStream_eq_ok hopen
  have hspot' : c.spot (noteResource "Opening resource" c w).disk.workplace = w.spotIn l name :=
    hspot
  rw [hspot'] at hcontent hopens
  rw [noteResource, file?_note] at hcontent
  exact ⟨content, s, hcontent, hstream, hopens⟩

/-- Reading a stream to its end yields all that it has to yield. -/
theorem read_eq_ok {i : StreamId} {w w' : Workspace} {bytes content now : Bytes}
    {spot : Spot} {s : Stream} (hs : w.streams[i]? = some s) (hopens : Opens spot content s)
    (hnow : w.file? spot = some now)
    (h : read i none w = (.ok bytes, w')) : bytes = yields content now spot := by
  unfold read at h
  rw [hs] at h
  simp only at h
  split at h
  · cases h
  · cases h
    simp [hopens.position, hopens.held hnow]

/-- A stream that is open can be read. -/
theorem read_of_open {i : StreamId} {w : Workspace} {s : Stream} (hs : w.streams[i]? = some s)
    (hopen : s.closed = false) : ∃ bytes, (read i none w).1 = .ok bytes := by
  unfold read
  rw [hs]
  simp only [hopen, Bool.false_eq_true, if_false]
  exact ⟨_, rfl⟩

/-! ### How opening fails -/

/-- A fault of a store: an input or output operation failed, or could not be asked for. -/
def isOfStore : Fault → Bool
  | .io .. | .invalidValue _ | .unencodable => true
  | _ => false

section OfStore

variable {fault : Fault}

theorem isOfStore_of_isIo (h : fault.isIo = true) : isOfStore fault = true := by
  cases fault with
  | io kind message => rfl
  | _ => cases h

/-- A store does not speak of sessions. -/
theorem phase?_of_isOfStore (h : isOfStore fault = true) : fault.phase? = none := by
  cases fault with
  | io | invalidValue | unencodable => rfl
  | _ => cases h

theorem isOfStore_of_child {name : Text} {l : Location} (h : l.child name = .error fault) :
    isOfStore fault = true := by
  unfold Location.child at h
  split at h
  · cases h
  · cases h
    rfl
  · cases h
  · split at h
    · cases h
    · cases h
      rfl

theorem isOfStore_of_unaskable {path : DiskPath} (h : Disk.unaskable? path = some fault) :
    isOfStore fault = true := by
  unfold Disk.unaskable? at h
  simp only at h
  split at h
  · cases h
    rfl
  split at h
  · cases h
    rfl
  · cases h

theorem isOfStore_of_openFile {d : Disk} {path : DiskPath} (h : d.openFile path = .error fault) :
    isOfStore fault = true := by
  unfold Disk.openFile at h
  split at h
  · next hfault =>
    cases h
    exact isOfStore_of_unaskable hfault
  split at h
  all_goals
    cases h
    try rfl

theorem isOfStore_of_obstacle {m : Memory} {place : Text} (h : m.obstacle? place = some fault) :
    isOfStore fault = true := by
  unfold Memory.obstacle? at h
  split at h
  · cases h
    rfl
  · obtain ⟨above, -, rfl⟩ := Option.map_eq_some_iff.mp h
    rfl

theorem isOfStore_of_readFile {m : Memory} {place : Text} (h : m.readFile place = .error fault) :
    isOfStore fault = true := by
  unfold Memory.readFile at h
  split at h
  · next hfault =>
    cases h
    exact isOfStore_of_obstacle hfault
  · cases h
  · cases h
    rfl

theorem isOfStore_of_sourceOf {w : Workspace} {c : Location} (h : w.sourceOf c = .error fault) :
    isOfStore fault = true := by
  cases c with
  | disk path => exact isOfStore_of_openFile (Run.map_eq_error_iff.mp h)
  | memory path => exact isOfStore_of_readFile (Run.map_eq_error_iff.mp h)

end OfStore

/-- **No failure to open a resource looks like the end of the chunks.** -/
theorem fetch_ne_exhausted (h : HandleId) (name : Text) (w : Workspace) :
    (fetch h name w).1 ≠ .error .exhausted := by
  rw [fetch_eq]
  rcases hresource : resource h name "Opening resource" w with ⟨fault | location, w₁⟩
  · -- the handle is unknown or closed, or the name belongs to another store
    rw [Run.bind_of_error hresource]
    unfold resource at hresource
    split at hresource
    · cases hresource
      simp
    split at hresource
    · cases hresource
      simp [handleIsClosed]
    split at hresource
    · rename_i fault' hchild
      cases hresource
      rintro heq
      cases heq
      cases isOfStore_of_child hchild
    · cases hresource
  · rw [Run.bind_of_ok hresource]
    unfold openStream
    cases hsource : w₁.sourceOf location with
    | error fault =>
      rintro heq
      cases heq
      cases isOfStore_of_sourceOf hsource
    | ok source => nofun

/-! ## 4. Storing -/

theorem onDisk_eq_ok {α : Type} {step : Run Disk α} {w w' : Workspace} {a : α}
    (h : onDisk step w = (.ok a, w')) :
    ∃ d, step w.disk = (.ok a, d) ∧ w' = { w with disk := d } := by
  unfold onDisk at h
  rcases hstep : step w.disk with ⟨o, d⟩
  rw [hstep] at h
  cases h
  exact ⟨d, rfl, rfl⟩

theorem onMemory_eq_ok {α : Type} {step : Run Memory α} {w w' : Workspace} {a : α}
    (h : onMemory step w = (.ok a, w')) :
    ∃ m, step w.memory = (.ok a, m) ∧ w' = { w with memory := m } := by
  unfold onMemory at h
  rcases hstep : step w.memory with ⟨o, m⟩
  rw [hstep] at h
  cases h
  exact ⟨m, rfl, rfl⟩

/-- A workspace with a file's content. -/
def put (w : Workspace) (spot : Spot) (content : Bytes) : Workspace :=
  match spot with
  | .disk place => { w with disk := w.disk.put place content }
  | .memory place => { w with memory := w.memory.put place content }

@[simp] theorem handles_put (w : Workspace) (spot : Spot) (content : Bytes) :
    (w.put spot content).handles = w.handles := by
  cases spot <;> rfl

@[simp] theorem streams_put (w : Workspace) (spot : Spot) (content : Bytes) :
    (w.put spot content).streams = w.streams := by
  cases spot <;> rfl

theorem file?_put {w : Workspace} {spot : Spot} (hspot : spot ≠ .disk []) (content : Bytes)
    (other : Spot) :
    (w.put spot content).file? other = if spot = other then some content else w.file? other := by
  cases spot with
  | disk place =>
    have hplace : place ≠ [] := fun h => hspot (h ▸ rfl)
    cases other with
    | disk q =>
      have hput := Disk.file?_put (d := w.disk) hplace content q
      simpa [file?, put] using hput
    | memory q => simp [file?, put]
  | memory place =>
    cases other with
    | disk q => simp [file?, put]
    | memory q =>
      have hput := Memory.file?_put w.memory place content q
      simpa [file?, put] using hput

theorem file?_put_self {w : Workspace} {spot : Spot} (hspot : spot ≠ .disk []) (content : Bytes) :
    (w.put spot content).file? spot = some content := by
  rw [file?_put hspot, if_pos rfl]

theorem put_writes {w : Workspace} {spot : Spot} (hspot : spot ≠ .disk []) (content : Bytes) :
    Writes (· = spot) [] w (w.put spot content) := by
  refine ⟨by cases spot <;> rfl, fun h l hl => by cases spot <;> exact hl, fun other hother => ?_,
    by cases spot <;> exact (List.append_nil _).symm⟩
  rw [file?_put hspot, if_neg fun h => hother h.symm]

/-- A file is not the root. -/
theorem spotIn_ne_root (w : Workspace) (l : Location) (name : Text) :
    w.spotIn l name ≠ .disk [] := by
  unfold spotIn
  cases l with
  | disk path => simp [Location.folder, Folder.spot]
  | memory path => simp [Location.folder, Folder.spot]

/-- Making directories changes no file, even if it fails. -/
theorem ensureDirectories_writes {P : Spot → Prop} {w : Workspace}
    {o : Except Fault Unit} {d : Disk} {path : DiskPath}
    (h : Disk.ensureDirectories path w.disk = (o, d)) :
    Writes P [] w { w with disk := d } := by
  have hsame := Disk.ensureDirectories_within path w.disk
  rw [h] at hsame
  refine ⟨hsame.workplace, fun _ _ hl => hl, fun spot _ => ?_, (List.append_nil _).symm⟩
  cases spot with
  | disk place => exact hsame.file? place
  | memory place => rfl

theorem ensureMemoryDirectories_writes {P : Spot → Prop} {w : Workspace} {o : Except Fault Unit}
    {m : Memory} {path : MemoryPath} (h : Memory.ensureDirectories path w.memory = (o, m)) :
    Writes P [] w { w with memory := m } := by
  have hsame := Memory.ensureDirectories_within path w.memory
  rw [h] at hsame
  refine ⟨rfl, fun _ _ hl => hl, fun spot _ => ?_, (List.append_nil _).symm⟩
  cases spot with
  | disk place => rfl
  | memory place =>
    show Pairs.get? place m.files = Pairs.get? place w.memory.files
    rw [hsame]

/-- Beginning to store empties the file; what is written later goes there. -/
theorem begin_eq_ok {location : Location} {w w' : Workspace} {write : Bytes → Workspace → Workspace}
    (hspot : location.spot w.disk.workplace ≠ .disk []) (h : begin location w = (.ok write, w')) :
    Writes (· = location.spot w.disk.workplace) [] w w' ∧
      w'.file? (location.spot w.disk.workplace) = some [] ∧ w'.streams = w.streams ∧
      ∀ bytes u, write bytes u = u.put (location.spot w.disk.workplace) bytes := by
  cases location with
  | disk path =>
    obtain ⟨_, w₁, hensure, h⟩ := Run.bind_eq_ok_iff.mp h
    obtain ⟨place, w₂, htruncate, h⟩ := Run.bind_eq_ok_iff.mp h
    obtain ⟨d, hensured, rfl⟩ := onDisk_eq_ok hensure
    obtain ⟨d', htruncated, rfl⟩ := onDisk_eq_ok htruncate
    obtain ⟨rfl, rfl⟩ := Disk.truncate_eq_ok htruncated
    cases h
    have hmade := ensureDirectories_writes (P := (· = (Location.disk path).spot w.disk.workplace))
      hensured
    -- the directories that were made do not change where the path leads
    have hplace : path.placeFrom d.workplace = path.placeFrom w.disk.workplace := by
      rw [← hmade.workplace]
    rw [hplace]
    exact ⟨hmade.trans _ _ _ (put_writes hspot []), file?_put_self hspot [], rfl, fun _ _ => rfl⟩
  | memory path =>
    obtain ⟨_, w₁, hensure, h⟩ := Run.bind_eq_ok_iff.mp h
    obtain ⟨_, w₂, htruncate, h⟩ := Run.bind_eq_ok_iff.mp h
    obtain ⟨m, hensured, rfl⟩ := onMemory_eq_ok hensure
    obtain ⟨m', htruncated, rfl⟩ := onMemory_eq_ok htruncate
    obtain rfl := Memory.truncate_eq_ok htruncated
    cases h
    have hmade := ensureMemoryDirectories_writes (P := (· = .memory path.place)) hensured
    exact ⟨hmade.trans _ _ _ (put_writes hspot []), file?_put_self hspot [], rfl, fun _ _ => rfl⟩

/-- That a resource is about to be stored is logged. -/
theorem saving_writes (P : Spot → Prop) {l c : Location} {name : Text} (hc : l.child name = .ok c)
    (w : Workspace) : Writes P (l.pathsBelow [name]) w (noteResource "Saving resource" c w) := by
  have hnote := (note_untouched (.ofPart .debug "resources" "Saving resource"
    [("path", .text c.text)]) w).writes P
  rw [storedPath?_saving] at hnote
  rw [Location.pathsBelow_singleton hc]
  exact hnote

/-- **Storing empties the file, asks for the content, and leaves that in the file.** -/
theorem save_eq_ok {h : HandleId} {name : Text} {content : Run Workspace Bytes} {w w' : Workspace}
    {l : Location} (hname : name.IsPlain) (hl : w.locationOf? h = some l)
    (hsave : save h name content w = (.ok (), w')) :
    ∃ w₁ w₂ bytes, Writes (· = w.spotIn l name) (l.pathsBelow [name]) w w₁ ∧
      w₁.file? (w.spotIn l name) = some [] ∧ w₁.streams = w.streams ∧ content w₁ = (.ok bytes, w₂) ∧
      w' = w₂.put (w.spotIn l name) bytes := by
  obtain ⟨c, w₁, hresource, hrest⟩ := Run.bind_eq_ok_iff.mp hsave
  obtain ⟨write, w₂, hbegin, hrest⟩ := Run.bind_eq_ok_iff.mp hrest
  obtain ⟨bytes, w₃, hcontent, hwritten⟩ := Run.bind_eq_ok_iff.mp hrest
  obtain ⟨hchild, hspot, rfl⟩ := resource_eq_ok hname hl hresource
  -- that the resource was logged does not change where its location leads
  have hspot' : c.spot (noteResource "Saving resource" c w).disk.workplace = w.spotIn l name :=
    hspot
  obtain ⟨hbegun, hempty, hstreams, hwrite⟩ := begin_eq_ok (hspot' ▸ spotIn_ne_root w l name) hbegin
  rw [hspot'] at hbegun hempty hwrite
  cases hwritten
  refine ⟨w₂, w₃, bytes, ?_, hempty, hstreams, hcontent, hwrite bytes w₃⟩
  have h := (saving_writes (· = w.spotIn l name) hchild w).append hbegun
  rwa [List.append_nil] at h

/-! ## 5. Reading alone -/

/-- Streams were opened, read or closed, and the log went on. All else is as it was. -/
def Reads (w w' : Workspace) : Prop := ∃ streams journal, w' = { w with streams, journal }

theorem Reads.refl (w : Workspace) : Reads w w := ⟨w.streams, w.journal, rfl⟩

theorem Reads.trans (u v w : Workspace) (h : Reads u v) (h' : Reads v w) : Reads u w := by
  obtain ⟨_, _, rfl⟩ := h
  obtain ⟨streams, journal, rfl⟩ := h'
  exact ⟨streams, journal, rfl⟩

theorem Reads.handles {w w' : Workspace} (h : Reads w w') : w'.handles = w.handles := by
  obtain ⟨_, _, rfl⟩ := h
  rfl

theorem Reads.disk {w w' : Workspace} (h : Reads w w') : w'.disk = w.disk := by
  obtain ⟨_, _, rfl⟩ := h
  rfl

theorem Reads.memory {w w' : Workspace} (h : Reads w w') : w'.memory = w.memory := by
  obtain ⟨_, _, rfl⟩ := h
  rfl

theorem resource_reads (h : HandleId) (name : Text) (event : String) :
    Run.Within Reads (resource h name event) := by
  intro w
  unfold resource
  split
  · exact .refl w
  split
  · exact .refl w
  split
  · exact .refl w
  · exact ⟨_, _, rfl⟩

theorem openStream_reads (location : Location) : Run.Within Reads (openStream location) := by
  intro w
  unfold openStream
  split
  · exact .refl w
  · exact ⟨_, _, rfl⟩

theorem fetch_reads (h : HandleId) (name : Text) : Run.Within Reads (fetch h name) :=
  .bind Reads.trans (resource_reads h name "Opening resource") openStream_reads

theorem read_reads (i : StreamId) (size : Option Nat) : Run.Within Reads (read i size) := by
  intro w
  unfold read
  split
  · exact .refl w
  split
  · exact .refl w
  · exact ⟨_, _, rfl⟩

theorem shut_reads (i : StreamId) : Run.Within Reads (shut i) := by
  intro w
  simp only [shut, Run.change_apply]
  split
  · exact .refl w
  · exact ⟨_, _, rfl⟩

/-- **Before its end a session does nothing but read.** -/
theorem stayWithin_reads (remote : HandleId) (copy : Option HandleId) :
    (depots remote copy).StayWithin Reads where
  refl := .refl
  trans := Reads.trans
  fetch side name := by
    cases side with
    | remote => exact fetch_reads remote name
    | copy =>
      cases copy with
      | none => exact Reads.refl
      | some h => exact fetch_reads h name
  read := read_reads
  shut := shut_reads
  note _ _ _ _ := ⟨_, _, rfl⟩

/-! ## 6. Printing

Whoever uses the result sees the lines that a command prints, and those about what went wrong. Both
are aside from what is stored, opened and logged, so no operation but `print` and `complain` adds
one, however it ends. -/

/-- What is aside from the stores, the handles, the streams and the log. -/
def IsAside {β : Type} (part : Workspace → β) : Prop :=
  ∀ w disk memory handles streams journal,
    part { w with disk, memory, handles, streams, journal } = part w

theorem isAside_printed : IsAside printed := fun _ _ _ _ _ _ => rfl

theorem isAside_complaints : IsAside complaints := fun _ _ _ _ _ _ => rfl

/-- A part of the workspace is as it was. -/
def Keeps {β : Type} (part : Workspace → β) (w w' : Workspace) : Prop := part w' = part w

section Keeps

variable {β : Type} {part : Workspace → β}

theorem Keeps.refl (w : Workspace) : Keeps part w w := rfl

theorem Keeps.trans (u v w : Workspace) (h : Keeps part u v) (h' : Keeps part v w) :
    Keeps part u w :=
  Eq.trans h' h

theorem Reads.keeps (hpart : IsAside part) {w w' : Workspace} (h : Reads w w') :
    Keeps part w w' := by
  obtain ⟨_, _, rfl⟩ := h
  exact hpart w w.disk w.memory w.handles _ _

theorem stayWithin_keeps (hpart : IsAside part) (remote : HandleId) (copy : Option HandleId) :
    (depots remote copy).StayWithin (Keeps part) :=
  (stayWithin_reads remote copy).mono Keeps.refl Keeps.trans fun h => h.keeps hpart

theorem looksWithin_keeps (hpart : IsAside part) : LooksWithin (Keeps part) where
  session := stayWithin_keeps hpart
  openHandle _ w := hpart w w.disk w.memory _ w.streams w.journal
  closeHandle h w := by
    simp only [closeHandle, Run.change_apply]
    split
    · exact .refl w
    · exact hpart w w.disk w.memory _ w.streams w.journal

theorem onDisk_keeps (hpart : IsAside part) {α : Type} (step : Run Disk α) :
    Run.Within (Keeps part) (onDisk step) := fun w =>
  hpart w (step w.disk).2 w.memory w.handles w.streams w.journal

theorem onMemory_keeps (hpart : IsAside part) {α : Type} (step : Run Memory α) :
    Run.Within (Keeps part) (onMemory step) := fun w =>
  hpart w w.disk (step w.memory).2 w.handles w.streams w.journal

theorem begin_keeps (hpart : IsAside part) (location : Location) :
    Run.Within (Keeps part) (begin location) := by
  cases location with
  | disk path =>
    exact .bind Keeps.trans (onDisk_keeps hpart _) fun _ =>
      .bind Keeps.trans (onDisk_keeps hpart _) fun _ => .pure Keeps.refl _
  | memory path =>
    exact .bind Keeps.trans (onMemory_keeps hpart _) fun _ =>
      .bind Keeps.trans (onMemory_keeps hpart _) fun _ => .pure Keeps.refl _

theorem write_keeps (hpart : IsAside part) {location : Location} {w w' : Workspace}
    {write : Bytes → Workspace → Workspace} (h : begin location w = (.ok write, w')) (bytes : Bytes)
    (u : Workspace) : Keeps part u (write bytes u) := by
  cases location with
  | disk path =>
    obtain ⟨_, _, -, h⟩ := Run.bind_eq_ok_iff.mp h
    obtain ⟨place, _, -, h⟩ := Run.bind_eq_ok_iff.mp h
    cases h
    exact hpart u (u.disk.put place bytes) u.memory u.handles u.streams u.journal
  | memory path =>
    obtain ⟨_, _, -, h⟩ := Run.bind_eq_ok_iff.mp h
    obtain ⟨_, _, -, h⟩ := Run.bind_eq_ok_iff.mp h
    cases h
    exact hpart u u.disk (u.memory.put path.place bytes) u.handles u.streams u.journal

theorem save_keeps (hpart : IsAside part) (h : HandleId) (name : Text)
    {content : Run Workspace Bytes} (hcontent : Run.Within (Keeps part) content) :
    Run.Within (Keeps part) (save h name content) := by
  refine .bind Keeps.trans (fun w => (resource_reads h name "Saving resource" w).keeps hpart)
    fun location w => ?_
  have hbegin := begin_keeps hpart location w
  rcases hbegun : begin location w with ⟨fault | write, u⟩
  · rw [hbegun] at hbegin
    rw [Run.bind_of_error hbegun]
    exact hbegin
  · rw [hbegun] at hbegin
    rw [Run.bind_of_ok hbegun]
    exact hbegin.trans _ _ _ (Run.Within.bind Keeps.trans hcontent
      (f := fun bytes => Run.change (write bytes)) (fun bytes => write_keeps hpart hbegun bytes) u)

theorem endsWithin_keeps (hpart : IsAside part) (remote : HandleId) (copy : Option HandleId) :
    (depots remote copy).EndsWithin (Keeps part) where
  refl := .refl
  trans := Keeps.trans
  store name content := by
    cases copy with
    | none => exact Keeps.refl
    | some h => exact save_keeps hpart h name Keeps.refl
  release := (looksWithin_keeps hpart).release remote copy
  note _ _ w _ := hpart w w.disk w.memory w.handles w.streams _

end Keeps

/-- Nothing was printed. -/
def Quiet (w w' : Workspace) : Prop := w'.printed = w.printed

theorem Quiet.refl (w : Workspace) : Quiet w w := rfl

theorem Quiet.trans (u v w : Workspace) (h : Quiet u v) (h' : Quiet v w) :
    Quiet u w := Eq.trans h' h

theorem looksWithin_quiet : LooksWithin Quiet := looksWithin_keeps isAside_printed

theorem stayWithin_quiet (remote : HandleId) (copy : Option HandleId) :
    (depots remote copy).StayWithin Quiet := looksWithin_quiet.session remote copy

theorem read_quiet (i : StreamId) (size : Option Nat) : Run.Within Quiet (read i size) :=
  (stayWithin_quiet 0 none).read i size

theorem save_quiet (h : HandleId) (name : Text) {content : Run Workspace Bytes}
    (hcontent : Run.Within Quiet content) : Run.Within Quiet (save h name content) :=
  save_keeps isAside_printed h name hcontent

/-- Nothing was stored and nothing was printed. -/
structure Still (w w' : Workspace) : Prop extends Untouched [] w w' where
  quiet : Quiet w w'

theorem Still.refl (w : Workspace) : Still w w := ⟨.refl w, .refl w⟩

theorem Still.trans (u v w : Workspace) (h : Still u v) (h' : Still v w) : Still u w :=
  ⟨h.toUntouched.trans _ _ _ h'.toUntouched, h.quiet.trans _ _ _ h'.quiet⟩

theorem stayWithin_still (remote : HandleId) (copy : Option HandleId) :
    (depots remote copy).StayWithin Still :=
  have hstores := stayWithin_untouched remote copy
  have hlines := stayWithin_quiet remote copy
  { refl := .refl
    trans := Still.trans
    fetch := fun side name w => ⟨hstores.fetch side name w, hlines.fetch side name w⟩
    read := fun i size w => ⟨hstores.read i size w, hlines.read i size w⟩
    shut := fun i w => ⟨hstores.shut i w, hlines.shut i w⟩
    note := fun event fields w h => ⟨hstores.note event fields w h, hlines.note event fields w h⟩ }

theorem closeHandle_still (h : HandleId) : Run.Within Still (closeHandle h) := fun w =>
  ⟨closeHandle_untouched h w, looksWithin_quiet.closeHandle h w⟩

theorem looksWithin_still : LooksWithin Still :=
  ⟨stayWithin_still, fun l w => ⟨openHandle_untouched l w, .refl w⟩, closeHandle_still⟩

end IndexChain.Workspace
