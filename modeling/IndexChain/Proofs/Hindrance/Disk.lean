import IndexChain.Proofs.Growth.Disk
import IndexChain.Proofs.Run

/-!
# Hindrances on the disk — what keeps a file from being stored

Before a file is emptied the directories above it are made. **When they are there, nothing keeps a
plain name from being stored but its length, or a directory of that name**
(`failure?_truncate_child`).

Files that are stored make no directory and take none away, so the directories are the same
afterwards (`sameDirectories_put`), the way is still made (`ensureDirectories_of_located`), and what
was in the way of a name is still in its way.
-/

namespace IndexChain

namespace Disk

variable {d d' : Disk} {path : DiskPath} {place q : Place} {steps more : List Text} {name : Text}

/-! ## 1. Disks with the same directories -/

/-- The directories are the same, and paths lead where they led. -/
structure SameDirectories (d d' : Disk) : Prop where
  workplace : d'.workplace = d.workplace
  directory : ∀ q, d'.entry? q = some .directory ↔ d.entry? q = some .directory

theorem SameDirectories.refl (d : Disk) : SameDirectories d d := ⟨rfl, fun _ => .rfl⟩

theorem SameDirectories.trans {e : Disk} (h : SameDirectories d e) (h' : SameDirectories e d') :
    SameDirectories d d' :=
  ⟨h'.workplace.trans h.workplace, fun q => (h'.directory q).trans (h.directory q)⟩

theorem sameDirectories_put (hfree : d.entry? place ≠ some .directory) (content : Bytes) :
    SameDirectories d (d.put place content) := by
  have hroot : place ≠ [] := by
    rintro rfl
    exact hfree rfl
  refine ⟨rfl, fun q => ?_⟩
  rw [put, entry?_set _ hroot]
  by_cases hq : place = q
  · subst hq
    simp [hfree]
  · rw [if_neg hq]

/-- A walk that ends in a directory has passed directories alone. -/
theorem walk_of_sameDirectories (h : SameDirectories d d')
    (hwalk : d.walk place steps = .ok (q, some .directory)) :
    d'.walk place steps = .ok (q, some .directory) := by
  fun_induction walk d place steps with
  | case1 place => exact hwalk
  | case2 place rest ih =>
    rw [walk, if_pos rfl]
    exact ih hwalk
  | case3 => cases hwalk
  | case4 place step rest hstep hlimit below hbelow ih =>
    rw [walk_down d' place hstep hlimit, (h.directory _).mpr hbelow]
    exact ih hwalk
  | case5 => simp at hwalk
  | case6 => cases hwalk
  | case7 => simp at hwalk
  | case8 => cases hwalk

/-- From a directory on, a walk goes on as it would from there. -/
theorem walk_append (hwalk : d.walk place steps = .ok (q, some .directory)) (more : List Text) :
    d.walk place (steps ++ more) = d.walk q more := by
  fun_induction walk d place steps with
  | case1 place =>
    cases hwalk
    rfl
  | case2 place rest ih =>
    rw [List.cons_append, walk, if_pos rfl]
    exact ih hwalk
  | case3 => cases hwalk
  | case4 place step rest hstep hlimit below hbelow ih =>
    rw [List.cons_append, walk_down d place hstep hlimit, hbelow]
    exact ih hwalk
  | case5 => simp at hwalk
  | case6 => cases hwalk
  | case7 => simp at hwalk
  | case8 => cases hwalk

theorem locate_of_sameDirectories (h : SameDirectories d d')
    (hlocate : d.locate path = .ok (q, some .directory)) :
    d'.locate path = .ok (q, some .directory) := by
  unfold locate at hlocate ⊢
  rw [h.workplace]
  split at hlocate
  · cases hlocate
  · rename_i hlimit
    rw [if_neg hlimit]
    exact walk_of_sameDirectories h hlocate

/-! ## 2. The way to a file -/

/-- The place where a directory was made is found again. -/
theorem walk_made (hplace : q ≠ []) (hwalk : d.walk place steps = .ok (q, none)) :
    Disk.walk { d with entries := Pairs.set q .directory d.entries } place steps =
      .ok (q, some .directory) := by
  fun_induction walk d place steps with
  | case1 place => simp at hwalk
  | case2 place rest ih =>
    rw [walk, if_pos rfl]
    exact ih hwalk
  | case3 => cases hwalk
  | case4 place step rest hstep hlimit below hbelow ih =>
    -- the directories on the way are still there
    have hkept : Disk.entry? { d with entries := Pairs.set q .directory d.entries }
        (place ++ [step]) = some .directory := by
      rw [entry?_set _ hplace, hbelow, ite_self]
    rw [walk_down _ place hstep hlimit, hkept]
    exact ih hwalk
  | case5 => simp at hwalk
  | case6 => cases hwalk
  | case7 place step rest hstep hlimit below hbelow hrest =>
    obtain rfl := List.isEmpty_iff.mp hrest
    obtain rfl : below = q := by simpa using hwalk
    rw [walk_down _ place hstep hlimit, entry?_set _ hplace, if_pos rfl]
    rfl
  | case8 => cases hwalk

theorem located_makeDirectory (h : d.makeDirectory path = .ok d') :
    ∃ q, d'.locate path = .ok (q, some .directory) := by
  unfold makeDirectory at h
  split at h
  · cases h
  · cases h
  · rename_i place hlocate
    cases h
    have hroot : place ≠ [] := by
      rintro rfl
      cases (locate_eq_ok hlocate).2.resolve_left nofun
    unfold locate at hlocate ⊢
    split at hlocate
    · cases hlocate
    · rename_i hlimit
      rw [if_neg hlimit]
      exact ⟨place, walk_made hroot hlocate⟩

theorem located_ensureDirectory (h : ensureDirectory path d = (.ok (), d')) :
    ∃ q, d'.locate path = .ok (q, some .directory) := by
  unfold ensureDirectory at h
  split at h
  · rename_i hmade
    cases h
    exact located_makeDirectory hmade
  · cases h
  · split at h
    · rename_i hdirectory
      cases h
      unfold isDirectory at hdirectory
      split at hdirectory
      · rename_i q hlocate
        exact ⟨q, hlocate⟩
      · cases hdirectory
    · cases h

/-- **Where the directories were made, the path leads to one.** -/
theorem located_ensureDirectories (h : ensureDirectories path d = (.ok (), d')) :
    unaskable? path = none ∧ ∃ q, d'.locate path = .ok (q, some .directory) := by
  unfold ensureDirectories at h
  cases haskable : unaskable? path with
  | some fault =>
    rw [haskable] at h
    cases h
  | none =>
    rw [haskable] at h
    refine ⟨rfl, ?_⟩
    generalize path.steps.length = above at h
    cases above with
    | zero => exact located_ensureDirectory h
    | succ above =>
      simp only [ensureAll] at h
      split at h
      · rcases habove : ensureAll path.parent above d with ⟨fault | ⟨⟩, d₁⟩
        · rw [habove] at h
          cases h
        · rw [habove] at h
          exact located_ensureDirectory h
      · exact located_ensureDirectory h

theorem exists_failure_of_ensureDirectory {fault : Fault}
    (h : ensureDirectory path d = (.error fault, d')) : ∃ kind, fault = failure kind path := by
  unfold ensureDirectory at h
  split at h
  · cases h
  · cases h
    exact ⟨_, rfl⟩
  · split at h
    · cases h
    · cases h
      exact ⟨_, rfl⟩

theorem exists_failure_of_ensureAll {above : Nat} {fault : Fault}
    (h : ensureAll path above d = (.error fault, d')) :
    ∃ kind path', fault = failure kind path' := by
  induction above generalizing path d d' with
  | zero =>
    obtain ⟨kind, rfl⟩ := exists_failure_of_ensureDirectory h
    exact ⟨kind, path, rfl⟩
  | succ above ih =>
    simp only [ensureAll] at h
    split at h
    · rcases habove : ensureAll path.parent above d with ⟨fault' | ⟨⟩, e⟩
      · rw [habove] at h
        cases h
        exact ih habove
      · rw [habove] at h
        obtain ⟨kind, rfl⟩ := exists_failure_of_ensureDirectory h
        exact ⟨kind, path, rfl⟩
    · obtain ⟨kind, rfl⟩ := exists_failure_of_ensureDirectory h
      exact ⟨kind, path, rfl⟩

/-- There is nothing to make where the path leads to a directory. -/
theorem ensureDirectories_of_located (haskable : unaskable? path = none)
    (hlocate : d.locate path = .ok (q, some .directory)) :
    ensureDirectories path d = (.ok (), d) := by
  have hmake : d.makeDirectory path = .error .alreadyExists := by
    simp only [makeDirectory, hlocate]
  have hensure : ensureDirectory path d = (.ok (), d) := by
    simp [ensureDirectory, hmake, isDirectory, hlocate]
  unfold ensureDirectories
  rw [haskable]
  cases path.steps.length with
  | zero => exact hensure
  | succ above =>
    simp only [ensureAll, hmake]
    exact hensure

/-! ## 3. Names in a directory -/

/-- What keeps a plain name from being stored in a directory: that it cannot be asked for, that it
    is too long, or a directory under that name. -/
theorem failure?_truncate_child (hlocate : d.locate path = .ok (q, some .directory))
    (hname : name.IsPlain) :
    (truncate (path.child name)).failure? d =
      match unaskable? (path.child name) with
      | some fault => some fault
      | none =>
        if pathLimit < byteCount (path.child name).text ∨ nameLimit < byteCount name then
          some (failure .general (path.child name))
        else if d.entry? (q ++ [name]) =
          some .directory then some (failure .isDirectory (path.child name))
        else none := by
  unfold Run.failure? truncate
  cases unaskable? (path.child name) with
  | some fault => rfl
  | none =>
    unfold locate at hlocate ⊢
    by_cases hpath : pathLimit < byteCount (path.child name).text
    · simp [hpath]
    rw [if_neg hpath]
    split at hlocate
    · cases hlocate
    rw [DiskPath.child_of_isPlain path hname, walk_append hlocate] at *
    by_cases hlimit : nameLimit < byteCount name
    · simp [walk, hname.ne_upwards, hlimit]
    rw [walk_down d q hname.ne_upwards hlimit]
    rcases d.entry? (q ++ [name]) with _ | (_ | content) <;> simp [hpath, hlimit, walk]

/-- **What is in the way of a name stays in its way** while the directories are the same. -/
theorem failure?_truncate_of_sameDirectories (h : SameDirectories d d')
    (hlocate : d.locate path = .ok (q, some .directory)) (hname : name.IsPlain) :
    (truncate (path.child name)).failure? d' = (truncate (path.child name)).failure? d := by
  rw [failure?_truncate_child hlocate hname,
    failure?_truncate_child (locate_of_sameDirectories h hlocate) hname]
  simp only [h.directory]

/-! ## 4. Making the way and emptying the file -/

/-- All that is done before a file's content is asked for. -/
def prepare (path : DiskPath) : Run Disk Place :=
  ensureDirectories path.parent >>= fun _ => truncate path

/-- **What fails after the way was made once fails as it did before that**, and nothing else
does. -/
theorem failure?_prepare_of_sameDirectories {e : Disk}
    (hmake : ensureDirectories path d = (.ok (), e)) (h : SameDirectories e d')
    (hname : name.IsPlain) :
    (prepare (path.child name)).failure? d' = (prepare (path.child name)).failure? d := by
  obtain ⟨haskable, q, hlocate⟩ := located_ensureDirectories hmake
  have hmake' := ensureDirectories_of_located haskable (locate_of_sameDirectories h hlocate)
  have hparent : (path.child name).parent = path := by
    rw [DiskPath.child_of_isPlain path hname, DiskPath.parent, List.dropLast_concat]
  unfold prepare
  rw [hparent, Run.failure?_bind_of_ok hmake, Run.failure?_bind_of_ok hmake']
  exact failure?_truncate_of_sameDirectories h hlocate hname

end Disk

end IndexChain
