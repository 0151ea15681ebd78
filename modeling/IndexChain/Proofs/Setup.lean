import IndexChain.Proofs.Command

/-!
# Set-up — what is left of a session that could not be opened

Settings become a session in stages: a handle on the published index, a handle on the copy if there
is to be one, and the session between the two. `Unopened` lists the stages at which this can end,
with the handles that were made by then.

No file is changed on the way. **All handles that were made are closed again, unless the copy's
location makes no sense** (`openSession_error`). Then the handle on the published index is left
open, since nobody looks after the handles before both are made.
-/

namespace IndexChain

namespace Workspace

variable {w : Workspace}

/-! ## 1. Handles -/

/-- The workspace with some more handles. -/
def withHandles (w : Workspace) (added : List Handle) : Workspace :=
  { w with handles := w.handles ++ added }

theorem withHandles_append (w : Workspace) (added added' : List Handle) :
    (w.withHandles added).withHandles added' = w.withHandles (added ++ added') := by
  unfold withHandles
  rw [List.append_assoc]

theorem closeHandle_handles {before after : List Handle} {handle : Handle}
    (h : w.handles = before ++ handle :: after) :
    (closeHandle before.length w).2.handles =
      before ++ { handle with closed := true } :: after := by
  have hget : w.handles[before.length]? = some handle := by
    rw [h, List.getElem?_append_right (le_refl _), Nat.sub_self, List.getElem?_cons_zero]
  simp only [closeHandle, Run.change_apply, hget]
  rw [h, List.set_append_right _ _ (le_refl _), Nat.sub_self, List.set_cons_zero]

end Workspace

open Workspace (depots)

/-- The handles on the published index and on the copy. -/
def handlesOn (closed : Bool) (R : Location) (copy : Option Location) : List Handle :=
  (R :: copy.toList).map fun location => { location, closed }

/-- The number of the handle on the copy, behind that on the published index. -/
def copyHandle (remote : HandleId) (copy : Option Location) : Option HandleId :=
  copy.map fun _ => remote + 1

namespace Session

variable {w w' : Workspace} {before : List Handle} {R : Location} {copy : Option Location}

/-- Releasing the places closes their handles. -/
theorem release_handles (h : w.handles = before ++ handlesOn false R copy) :
    (release (depots before.length (copyHandle before.length copy)) copy.isSome w).1 = .ok () ∧
      (release (depots before.length (copyHandle before.length copy)) copy.isSome w).2.handles =
        before ++ handlesOn true R copy := by
  have hhandles := Workspace.closeHandle_handles h
  cases copy with
  | none => exact ⟨rfl, hhandles⟩
  | some L =>
    -- the handle on the copy stands behind the one that was closed first
    rw [List.append_cons] at hhandles
    have hhandles' := Workspace.closeHandle_handles hhandles
    rw [List.length_append, List.append_assoc] at hhandles'
    exact ⟨rfl, hhandles'⟩

end Session

namespace Settings

variable {homes : DiskPath.Homes} {s : Settings} {w w' : Workspace} {R : Location}
    {copy : Option Location}
  {fault : Fault}

/-! ## 2. Stages -/

/-- Where setting up a session can end without one, and the handles that were made. -/
inductive Unopened (homes : DiskPath.Homes) (s : Settings) (w : Workspace) (fault : Fault) :
    List Handle → Prop
  /-- The location of the published index makes no sense. -/
  | misplaced : s.remoteLocation = .error fault → Unopened homes s w fault []
  /-- The location of the copy makes none. -/
  | copyMisplaced {R : Location} : s.remoteLocation = .ok R → s.copyLocation homes = .error fault →
      Unopened homes s w fault (handlesOn false R none)
  /-- There is no session between the two. -/
  | refused {R : Location} {copy : Option Location} :
      s.remoteLocation = .ok R → s.copyLocation homes = .ok copy →
      (Session.establish (depots w.handles.length (copyHandle w.handles.length copy)) copy.isSome
        (some s.comment) (w.withHandles (handlesOn false R copy))).1 = .error fault →
      Unopened homes s w fault (handlesOn true R copy)

theorem openAt_ok (R : Location) (w : Workspace) :
    openAt (.ok R) w = (.ok w.handles.length, w.withHandles [{ location := R }]) := rfl

theorem openCopy_ok (h : s.copyLocation homes = .ok copy) (w : Workspace) :
    s.openCopy homes w =
      (.ok (copy.map fun _ => w.handles.length), w.withHandles
        (copy.toList.map fun l => { location := l })) := by
  unfold openCopy
  rw [h]
  cases copy with
  | none =>
    show (Except.ok none, w) = (Except.ok none, { w with handles := w.handles ++ [] })
    rw [List.append_nil]
  | some L => rfl

/-- Where both locations make sense it comes to the session between them, and to closing the handles
if there is none. -/
theorem openSession_eq (hR : s.remoteLocation = .ok R) (hcopy : s.copyLocation homes = .ok copy)
    (w : Workspace) :
    s.openSession homes w =
      ((Session.establish (depots w.handles.length (copyHandle w.handles.length copy)) copy.isSome
          (some s.comment)).recover Fault.isOrdinary
        (fun fault =>
          Session.release (depots w.handles.length (copyHandle w.handles.length copy))
              copy.isSome >>= fun _ =>
            Run.fail fault) >>= fun session =>
          pure ⟨w.handles.length, copyHandle w.handles.length copy, session⟩)
        (w.withHandles (handlesOn false R copy)) := by
  have hlength : (w.withHandles [{ location := R }]).handles.length = w.handles.length + 1 :=
    List.length_append
  unfold openSession
  rw [hR, Run.bind_of_ok (openAt_ok R w), Run.bind_of_ok (openCopy_ok hcopy _),
    Workspace.withHandles_append, hlength]
  simp only [Option.isSome_map]
  rfl

/-- A session that is refused for whatever can be answered leaves two handles that are closed, or
one if there is to be no copy. -/
theorem openSession_of_refused {u : Workspace} (hR : s.remoteLocation = .ok R)
    (hcopy : s.copyLocation homes = .ok copy)
    (hestablish : Session.establish (depots w.handles.length (copyHandle w.handles.length copy))
      copy.isSome (some s.comment) (w.withHandles (handlesOn false R copy)) = (.error fault, u))
    (hordinary : fault.isOrdinary = true) :
    ∃ w', s.openSession homes w = (.error fault, w') ∧
    w'.handles = w.handles ++ handlesOn true R copy := by
  have hreads := (Session.establish_within (Workspace.stayWithin_reads _ _) _ _).of_eq hestablish
  obtain ⟨hrelease, hhandles⟩ := Session.release_handles hreads.handles
  refine ⟨_, ?_, hhandles⟩
  rw [openSession_eq hR hcopy]
  refine Run.bind_of_error ((Run.recover_of_caught hestablish hordinary).trans ?_)
  exact Run.bind_of_ok (Prod.ext hrelease rfl)

/-- The handles of a session that was opened stand behind those that there were. -/
theorem handles_of_openSession {opened : Opened} (hR : s.remoteLocation = .ok R)
    (hcopy : s.copyLocation homes = .ok copy) (h : s.openSession homes w = (.ok opened, w')) :
    opened.remote = w.handles.length ∧ opened.copy = copyHandle w.handles.length copy ∧
      w'.handles = w.handles ++ handlesOn false R copy := by
  rw [openSession_eq hR hcopy] at h
  obtain ⟨session, u, hrecover, h⟩ := Run.bind_eq_ok_iff.mp h
  cases h
  have hestablish := Run.eq_ok_of_recover (fun fault u b v hanswer => ?_) hrecover
  · exact ⟨rfl, rfl, ((Session.establish_within (Workspace.stayWithin_reads _ _) _ _).of_eq
      hestablish).handles⟩
  · obtain ⟨_, _, _, hfail⟩ := Run.bind_eq_ok_iff.mp hanswer
    cases hfail

theorem unopened_of_openSession (h : s.openSession homes w = (.error fault, w'))
    (hordinary : fault.isOrdinary = true) :
    ∃ created, w'.handles = w.handles ++ created ∧ Unopened homes s w fault created := by
  cases hR : s.remoteLocation with
  | error fault' =>
    have hopen : s.openSession homes w = (.error fault', w) := by
      unfold openSession
      rw [hR]
      rfl
    cases hopen.symm.trans h
    exact ⟨[], (List.append_nil _).symm, .misplaced hR⟩
  | ok R =>
    cases hcopy : s.copyLocation homes with
    | error fault' =>
      have hopen :
          s.openSession homes w = (.error fault', w.withHandles (handlesOn false R none)) := by
        unfold openSession openCopy
        rw [hR, hcopy]
        rfl
      cases hopen.symm.trans h
      exact ⟨_, rfl, .copyMisplaced hR hcopy⟩
    | ok copy =>
      rcases hestablish : Session.establish
        (depots w.handles.length (copyHandle w.handles.length copy)) copy.isSome (some s.comment)
        (w.withHandles (handlesOn false R copy)) with ⟨fault' | session, u⟩
      · by_cases hordinary' : fault'.isOrdinary = true
        · obtain ⟨v, hopen, hhandles⟩ := openSession_of_refused hR hcopy hestablish hordinary'
          cases hopen.symm.trans h
          exact ⟨_, hhandles, .refused hR hcopy (congrArg Prod.fst hestablish)⟩
        · -- an interruption is not answered, and stays one
          rw [openSession_eq hR hcopy, Run.bind_of_error
            (Run.recover_of_uncaught hestablish hordinary')] at h
          cases h
          exact absurd hordinary hordinary'
      · rw [openSession_eq hR hcopy, Run.bind_of_ok (Run.recover_of_ok hestablish)] at h
        cases h

theorem Unopened.closed_iff {created : List Handle} (h : Unopened homes s w fault created) :
    (∀ handle ∈ created, handle.closed = true) ↔
      ¬((∃ R, s.remoteLocation = .ok R) ∧ s.copyLocation homes = .error fault) := by
  cases h with
  | misplaced hR =>
    refine iff_of_true nofun ?_
    rintro ⟨⟨R, hR'⟩, -⟩
    cases hR.symm.trans hR'
  | @copyMisplaced R hR hcopy =>
    refine iff_of_false (fun hclosed => ?_) fun hnot => hnot ⟨⟨R, hR⟩, hcopy⟩
    exact Bool.false_ne_true (hclosed { location := R } List.mem_cons_self)
  | refused hR hcopy hestablish =>
    refine iff_of_true (fun handle hmem => ?_) ?_
    · obtain ⟨location, -, rfl⟩ := List.mem_map.mp hmem
      rfl
    · rintro ⟨-, hcopy'⟩
      cases hcopy.symm.trans hcopy'

/-- **A session that could not be opened leaves no file changed, and no handle open but one.** The
handles that there were are as they were. Those that were made follow from the stage that failed,
and they are all closed again unless the published index has a location and it is the copy's that
makes no sense. -/
theorem openSession_error (h : s.openSession homes w = (.error fault, w'))
    (hordinary : fault.isOrdinary = true) :
    w'.disk = w.disk ∧ w'.memory = w.memory ∧
    ∃ created, w'.handles = w.handles ++ created ∧ Unopened homes s w fault created ∧
      ((∀ handle ∈ created, handle.closed = true) ↔
        ¬((∃ R, s.remoteLocation = .ok R) ∧ s.copyLocation homes = .error fault)) := by
  have huntouched := (Command.openSession_within Workspace.looksWithin_untouched homes s).of_eq h
  obtain ⟨created, hhandles, hunopened⟩ := unopened_of_openSession h hordinary
  exact ⟨huntouched.disk, huntouched.memory, created, hhandles, hunopened, hunopened.closed_iff⟩

/-- Nothing is stored anywhere. -/
def bare : Workspace where
  disk := ⟨[], []⟩

/-- There is no index where one should be published. -/
theorem openSession_error_bare :
    ∃ fault w', Command.catchUp.openSession [] bare = (.error fault, w') ∧ w'.handles.length = 2 ∧
      ∀ handle ∈ w'.handles, handle.closed = true := by
  have hopen : Command.catchUp.openSession [] bare = (.error _, _) := rfl
  obtain ⟨-, -, created, hhandles, -, hclosed⟩ := openSession_error hopen rfl
  refine ⟨_, _, hopen, rfl, ?_⟩
  rw [hhandles]
  refine hclosed.mpr ?_
  rintro ⟨-, hcopy⟩
  cases hcopy

/-- A copy in a store that nobody knows. -/
def misplacedCopy : Settings := { remote := "memory://r", copy := some "nosuch://l" }

/-- **A handle is left open**: the one on the published index, if there is no such store for the
copy. -/
theorem left_open_misplacedCopy :
    ∃ fault w', misplacedCopy.openSession [] bare = (.error fault, w') ∧ fault.isOrdinary = true ∧
      bare.handles = [] ∧ ∃ handle ∈ w'.handles, handle.closed = false := by
  exact ⟨_, _, rfl, rfl, rfl, _, List.mem_cons_self, rfl⟩

end Settings

end IndexChain
