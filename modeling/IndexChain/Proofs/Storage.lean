import IndexChain.Proofs.Location
import IndexChain.Proofs.Run
import IndexChain.Storage.Disk
import IndexChain.Storage.Memory

/-!
# Files — what the operations on disk and memory do to them

Of both stores only the files matter here: `file?` says what is in the file at a place, if there is
one. There are two kinds of operations.

* Those that write, which change **the file at one place and no other** (`file?_put`). On the disk
  that place is where the path leads by itself: a walk that succeeds ends where the path's steps
  lead (`walk_eq_ok`), whatever is on the way.
* Those that make directories, which change **no file at all** (`ensureDirectories_within`): a
  directory is only made where nothing is.
-/

namespace IndexChain

namespace Disk

/-! ## 1. The disk -/

/-- The content of the file at a place, if there is one. -/
def file? (d : Disk) (place : Place) : Option Bytes :=
  match d.entry? place with
  | some (.file content) => some content
  | _ => none

/-- The files are the same, and paths lead where they led. -/
structure SameFiles (d d' : Disk) : Prop where
  workplace : d'.workplace = d.workplace
  file? : ∀ place, d'.file? place = d.file? place

theorem SameFiles.refl (d : Disk) : SameFiles d d := ⟨rfl, fun _ => rfl⟩

theorem SameFiles.trans (d e f : Disk) (h : SameFiles d e) (h' : SameFiles e f) : SameFiles d f :=
  ⟨h'.workplace.trans h.workplace, fun place => (h'.file? place).trans (h.file? place)⟩

theorem entry?_set {d : Disk} {place q : Place} (e : Entry) (hplace : place ≠ []) :
    Disk.entry? { d with entries := Pairs.set place e d.entries } q =
      if place = q then some e else d.entry? q := by
  unfold entry?
  by_cases hq : q = []
  · have hne : place ≠ q := fun h => hplace (h.trans hq)
    simp [hq, hplace]
  · simp only [List.isEmpty_iff, hq, if_false, Pairs.get?_set]

theorem file?_put {d : Disk} {place : Place} (hplace : place ≠ []) (content : Bytes) (q : Place) :
    (d.put place content).file? q = if place = q then some content else d.file? q := by
  unfold file? put
  rw [entry?_set _ hplace]
  by_cases hq : place = q
  · rw [if_pos hq, if_pos hq]
  · rw [if_neg hq, if_neg hq]

theorem contentAt_of_file? {d : Disk} {place : Place} {content : Bytes}
    (h : d.file? place = some content) : d.contentAt place = content := by
  unfold file? at h
  unfold contentAt
  cases hentry : d.entry? place with
  | none => simp [hentry] at h
  | some e =>
    cases e with
    | directory => simp [hentry] at h
    | file content' => simpa [hentry] using h

/-- **A walk ends where the steps lead by themselves**, and tells what is there. -/
theorem walk_eq_ok {d : Disk} {place q : Place} {steps : List Text} {e : Option Entry}
    (h : d.walk place steps = .ok (q, e)) :
    q = steps.foldl DiskPath.stepFrom place ∧ (e = some .directory ∨ d.entry? q = e) := by
  fun_induction walk d place steps with
  | case1 place =>
    cases h
    exact ⟨rfl, .inl rfl⟩
  | case2 place rest ih =>
    -- a step upwards
    obtain ⟨hq, he⟩ := ih h
    refine ⟨?_, he⟩
    rw [List.foldl_cons, DiskPath.stepFrom, if_pos rfl]
    exact hq
  | case3 => cases h
  | case4 place step rest hstep hlimit below hbelow ih =>
    -- a step into a directory
    obtain ⟨hq, he⟩ := ih h
    refine ⟨?_, he⟩
    rw [List.foldl_cons, DiskPath.stepFrom, if_neg hstep]
    exact hq
  | case5 place step rest hstep hlimit below content hbelow hrest =>
    -- a file, behind which no step can follow
    rw [Except.ok.injEq, Prod.mk.injEq] at h
    obtain rfl := List.isEmpty_iff.mp hrest
    rw [← h.1, ← h.2]
    exact ⟨by simp [DiskPath.stepFrom, hstep, below], .inr hbelow⟩
  | case6 => cases h
  | case7 place step rest hstep hlimit below hbelow hrest =>
    -- nothing is there, which only the last step may find
    rw [Except.ok.injEq, Prod.mk.injEq] at h
    obtain rfl := List.isEmpty_iff.mp hrest
    rw [← h.1, ← h.2]
    exact ⟨by simp [DiskPath.stepFrom, hstep, below], .inr hbelow⟩
  | case8 => cases h

theorem locate_eq_ok {d : Disk} {path : DiskPath} {q : Place} {e : Option Entry}
    (h : d.locate path = .ok (q, e)) :
    q = path.placeFrom d.workplace ∧ (e = some .directory ∨ d.entry? q = e) := by
  unfold locate at h
  split at h
  · cases h
  · exact walk_eq_ok h

/-- Opening a file finds it where its path leads. -/
theorem openFile_eq_ok {d : Disk} {path : DiskPath} {place : Place}
    (h : d.openFile path = .ok place) :
    place = path.placeFrom d.workplace ∧ ∃ content, d.file? place = some content := by
  unfold openFile at h
  split at h
  · cases h
  split at h
  · cases h
  · cases h
  · cases h
  · rename_i content hlocate
    cases h
    obtain ⟨hq, he⟩ := locate_eq_ok hlocate
    rcases he with he | he
    · cases he
    · exact ⟨hq, content, by simp only [file?, he]⟩

/-- Emptying a file changes the disk where its path leads. -/
theorem truncate_eq_ok {d d' : Disk} {path : DiskPath} {place : Place}
    (h : truncate path d = (.ok place, d')) :
    place = path.placeFrom d.workplace ∧ d' = d.put place [] := by
  unfold truncate at h
  split at h
  · cases h
  split at h
  · cases h
  · cases h
  · rename_i e hlocate
    cases h
    exact ⟨(locate_eq_ok hlocate).1, rfl⟩

/-! ### Directories -/

theorem sameFiles_makeDirectory {d d' : Disk} {path : DiskPath}
    (h : d.makeDirectory path = .ok d') : SameFiles d d' := by
  unfold makeDirectory at h
  split at h
  · cases h
  · cases h
  · rename_i place hlocate
    cases h
    refine ⟨rfl, fun q => ?_⟩
    -- nothing was where the directory is now, in particular no file
    have hnone : d.entry? place = none := (locate_eq_ok hlocate).2.resolve_left (by simp)
    have hplace : place ≠ [] := by
      rintro rfl
      cases hnone
    unfold file?
    rw [entry?_set _ hplace]
    by_cases hq : place = q
    · rw [if_pos hq, ← hq, hnone]
    · rw [if_neg hq]

theorem ensureDirectory_within (path : DiskPath) : Run.Within SameFiles (ensureDirectory path) := by
  intro d
  unfold ensureDirectory
  split
  · rename_i d' hmade
    exact sameFiles_makeDirectory hmade
  · exact .refl d
  · split <;> exact .refl d

theorem ensureAll_within (path : DiskPath) (above : Nat) :
    Run.Within SameFiles (ensureAll path above) := by
  induction above generalizing path with
  | zero => exact ensureDirectory_within path
  | succ above ih =>
    intro d
    unfold ensureAll
    split
    · have habove := ih path.parent d
      split
      · rename_i hparent
        rw [hparent] at habove
        exact habove
      · rename_i hparent
        rw [hparent] at habove
        exact habove.trans _ _ _ (ensureDirectory_within path _)
    · exact ensureDirectory_within path d

/-- Making directories changes no file. -/
theorem ensureDirectories_within (path : DiskPath) :
    Run.Within SameFiles (ensureDirectories path) := by
  unfold ensureDirectories
  split
  · exact SameFiles.refl
  · exact ensureAll_within path _

end Disk

namespace Memory

/-! ## 2. Memory -/

/-- The content of the file at a place, if there is one. -/
def file? (m : Memory) (place : Text) : Option Bytes := Pairs.get? place m.files

theorem file?_put (m : Memory) (place : Text) (content : Bytes) (q : Text) :
    (m.put place content).file? q = if place = q then some content else m.file? q :=
  Pairs.get?_set place q content m.files

theorem readFile_eq_ok {m : Memory} {place : Text} {content : Bytes}
    (h : m.readFile place = .ok content) : m.file? place = some content := by
  unfold readFile at h
  split at h
  · cases h
  · rename_i heq
    cases h
    exact heq
  · cases h

theorem truncate_eq_ok {m m' : Memory} {place : Text} (h : truncate place m = (.ok (), m')) :
    m' = m.put place [] := by
  unfold truncate at h
  split at h
  · cases h
  · cases h
    rfl

theorem files_makeDirectories {m m' : Memory} {paths : List Text}
    (h : m.makeDirectories paths = .ok m') : m'.files = m.files := by
  induction paths generalizing m' with
  | nil =>
    cases h
    rfl
  | cons path outer ih =>
    unfold makeDirectories at h
    simp only at h
    split at h
    · cases h
    split at h
    · cases h
    split at h
    · rename_i hmade
      cases h
      have hfiles := ih hmade
      exact hfiles
    · cases h
      rfl
    · cases h

/-- Making directories changes no file. -/
theorem ensureDirectories_within (path : MemoryPath) :
    Run.Within (fun m m' : Memory => m'.files = m.files) (ensureDirectories path) := by
  intro m
  unfold ensureDirectories
  simp only
  split
  · rename_i hmade
    exact files_makeDirectories hmade
  · split <;> rfl
  · rfl

end Memory

end IndexChain
