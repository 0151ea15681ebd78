import IndexChain.Proofs.Growth.Memory
import IndexChain.Proofs.Run

/-!
# Hindrances in memory — what keeps a file from being stored

As on the disk, the directories above a file are made first. All files of a folder have the same
directories above them (`MemoryPath.parent_child`), and storing one file of a folder changes neither
these nor what is above the others. So **what is in the way of a name stays in its way**
(`failure?_truncate_of_sameAround`), and the way that was made once is there
(`ensureDirectories_of_isReached`).
-/

namespace IndexChain

open DiskPath (slash)

namespace MemoryPath

/-! ## 1. The directory above a file -/

/-- What stands above a file of a folder does not depend on its name. -/
theorem above_child (p : MemoryPath) {name : Text} (h : name.IsPlain) :
    above (p.child name).path = slash :: p.stem.dropLast.dropWhile isSlash := by
  have hplace : settled (p.child name).path = p.stem ++ name := place_child p h
  have hname : ∀ c ∈ name.reverse, (!isSlash c) = true := by
    intro c hc
    rw [h.not_isSlash (List.mem_reverse.mp hc)]
    rfl
  -- all up to the slash at the end of the stem is dropped
  obtain ⟨before, hstem⟩ := List.getLast?_eq_some_iff.mp p.endsInSlash_stem
  unfold above
  simp only
  rw [hplace, List.reverse_append, List.dropWhile_append_of_pos hname, hstem, List.reverse_concat,
    List.dropWhile_cons_of_neg (by simp [isSlash]), List.drop_one, List.tail_cons,
    List.reverse_reverse,
    List.dropLast_concat]

theorem parent_child (p : MemoryPath) {name name' : Text} (h : name.IsPlain) (h' : name'.IsPlain) :
    (p.child name).parent = (p.child name').parent := by
  unfold parent
  rw [above_child p h, above_child p h']
  rfl

/-- A path that begins with one slash has only those at its end settled. -/
theorem settled_cons_slash {t : Text} (ht : ∀ c ∈ t.head?, isSlash c = false) :
    settled (slash :: t) =
      if Text.trimEnd isSlash t = [] then [] else slash :: Text.trimEnd isSlash t := by
  have hstart : Text.afterStart? start (slash :: t) = none := rfl
  have hfront : (slash :: t).dropWhile isSlash = t := by
    rw [List.dropWhile_cons_of_pos (isSlash_iff.mpr rfl)]
    cases t with
    | nil => rfl
    | cons c t => exact List.dropWhile_cons_of_neg (by simp [ht c rfl])
  have htrim : Text.trimEnd isSlash (slash :: t) =
      if Text.trimEnd isSlash t = [] then [] else slash :: Text.trimEnd isSlash t := by
    unfold Text.trimEnd
    rw [List.reverse_cons, List.dropWhile_append]
    split
    · next hnil =>
      rw [List.isEmpty_iff] at hnil
      simp [hnil, isSlash]
    · next hne =>
      rw [List.isEmpty_iff] at hne
      simp [hne]
  unfold settled
  simp only [hstart, Option.getD_none, hfront, htrim]
  split
  · rfl
  · cases Text.trimEnd isSlash t <;> simp

theorem settled_settled_cons_slash {t : Text} (ht : ∀ c ∈ t.head?, isSlash c = false) :
    settled (settled (slash :: t)) = settled (slash :: t) := by
  have htrim : Text.trimEnd isSlash (Text.trimEnd isSlash t) = Text.trimEnd isSlash t :=
    List.rdropWhile_idempotent isSlash t
  have hprefix : Text.trimEnd isSlash t <+: t := List.rdropWhile_prefix isSlash t
  rw [settled_cons_slash ht]
  split
  · rfl
  · next hne =>
    rw [settled_cons_slash, htrim, if_neg hne]
    intro c hc
    obtain ⟨rest, hrest⟩ := List.head?_eq_some_iff.mp hc
    obtain ⟨after, hafter⟩ := hprefix
    apply ht
    rw [← hafter, hrest]
    rfl

/-- The place of what is above a path is settled. -/
theorem settled_place_parent (p : MemoryPath) : settled p.parent.place = p.parent.place := by
  have habove : settled (settled (above p.path)) = settled (above p.path) := by
    unfold above
    simp only
    apply settled_settled_cons_slash
    intro c hc
    have hhead := List.head?_dropWhile_not isSlash
      (((settled p.path).reverse.dropWhile fun c => !isSlash c).drop 1).reverse
    rw [hc] at hhead
    exact hhead
  unfold place parent
  rw [habove, habove]

end MemoryPath

namespace Memory

open MemoryPath (settled extent)

variable {path p : MemoryPath} {m m' : Memory} {name : Text} {q : Text}

/-! ## 2. Memory that is the same around a folder -/

/-- Directories are the same, no file is gone, and all files are as they were but those in the
folder of a path. -/
structure SameAround (path : MemoryPath) (m m' : Memory) : Prop where
  directories : m'.directories = m.directories
  isSome_file? : ∀ q, (m.file? q).isSome = true → (m'.file? q).isSome = true
  file? : ∀ q, (∀ name, name.IsPlain → q ≠ path.stem ++ name) → m'.file? q = m.file? q

theorem SameAround.refl (path : MemoryPath) (m : Memory) : SameAround path m m :=
  ⟨rfl, fun _ h => h, fun _ _ => rfl⟩

theorem SameAround.trans {k : Memory} (h : SameAround path m k) (h' : SameAround path k m') :
    SameAround path m m' :=
  ⟨h'.directories.trans h.directories, fun q hq => h'.isSome_file? q (h.isSome_file? q hq),
    fun q hq => (h'.file? q hq).trans (h.file? q hq)⟩

theorem sameAround_put (hname : name.IsPlain) (m : Memory) (content : Bytes) :
    SameAround path m (m.put (path.stem ++ name) content) := by
  refine ⟨rfl, fun q hq => ?_, fun q hq => ?_⟩
  · rw [file?_put]
    split
    · rfl
    · exact hq
  · rw [file?_put, if_neg fun h => hq name hname h.symm]

theorem mem_files_iff : q ∈ m.files.map Prod.fst ↔ (m.file? q).isSome = true := by
  rw [Option.isSome_iff_ne_none, ne_eq, file?, Pairs.get?_eq_none_iff, not_not]

/-- Something is below a place still. -/
theorem isDirectory_of_sameAround (h : SameAround path m m') (hq : m.isDirectory q = true) :
    m'.isDirectory q = true := by
  unfold isDirectory wasMade at hq ⊢
  rw [h.directories]
  simp only [Bool.or_eq_true, List.any_eq_true] at hq ⊢
  refine hq.imp_left (Or.imp_right ?_)
  rintro ⟨file, hfile, hbelow⟩
  have hmem := mem_files_iff.mpr (h.isSome_file? _ (mem_files_iff.mp (List.mem_map_of_mem hfile)))
  obtain ⟨file', hfile', heq⟩ := List.mem_map.mp hmem
  exact ⟨file', hfile', heq ▸ hbelow⟩

/-! ## 3. The way to a file -/

/-- There is nothing to make above the files of a folder, which has the directory `p` above it. -/
structure IsReached (m : Memory) (p : MemoryPath) : Prop where
  taken : (m.file? p.place).isSome = true ∨ m.wasMade p.place = true
  directory : m.isDirectory p.place = true

theorem IsReached.of_sameAround (h : m.IsReached p) (hsame : SameAround path m m') :
    m'.IsReached p where
  taken := by
    refine h.taken.imp (hsame.isSome_file? _) fun hmade => ?_
    unfold wasMade at hmade ⊢
    rwa [hsame.directories]
  directory := isDirectory_of_sameAround hsame h.directory

/-- Making a directory fails where something is, makes it, or fails otherwise. -/
theorem makeDirectories_cons (m : Memory) {place : Text} (hplace : settled place = place)
    (outer : List Text) :
    ((m.file? place).isSome = true ∨ m.wasMade place = true) ∧
        (∃ words, m.makeDirectories (place :: outer) = .error (.io .alreadyExists words)) ∨
      (∃ m', m.makeDirectories (place :: outer) = .ok m' ∧ m'.wasMade place = true) ∨
      ∃ fault, m.makeDirectories (place :: outer) = .error fault ∧
        ∀ words, fault ≠ .io .alreadyExists words := by
  have hmade (k : Memory) : (k.addDirectory place).wasMade place = true := by
    simp [wasMade, addDirectory]
  have hfile : m.isFile place = (m.file? place).isSome := by
    unfold isFile file?
    rw [hplace]
  unfold makeDirectories
  simp only [hplace]
  rw [hfile]
  split
  · next htaken => exact .inl ⟨by simpa using htaken, _, rfl⟩
  split
  · exact .inr (.inr ⟨_, rfl, nofun⟩)
  split
  · next k _ => exact .inr (.inl ⟨_, rfl, hmade k⟩)
  · exact .inr (.inl ⟨_, rfl, hmade m⟩)
  · next fault hother _ => exact .inr (.inr ⟨_, rfl, fun words heq => hother words heq⟩)

theorem isReached_of_ensureDirectories (hplace : settled p.place = p.place)
    (h : ensureDirectories p m = (.ok (), m')) : m'.IsReached p := by
  unfold ensureDirectories at h
  simp only at h
  rcases makeDirectories_cons m hplace _ with ⟨htaken, words, hmake⟩ | ⟨k, hmake, hmade⟩ |
    ⟨fault, hmake, hother⟩
  · rw [hmake] at h
    simp only at h
    split at h
    · next hdirectory =>
      cases h
      exact ⟨htaken, hdirectory⟩
    · cases h
  · rw [hmake] at h
    cases h
    refine ⟨.inr hmade, ?_⟩
    unfold isDirectory
    rw [hmade]
    rfl
  · rw [hmake] at h
    simp only at h
    cases h

theorem isIo_of_makeDirectories {paths : List Text} {fault : Fault}
    (h : m.makeDirectories paths = .error fault) : fault.isIo = true := by
  induction paths generalizing fault with
  | nil => cases h
  | cons path outer ih =>
    unfold makeDirectories at h
    simp only at h
    split at h
    · cases h
      rfl
    split at h
    · cases h
      rfl
    split at h
    · cases h
    · cases h
    · next hmake =>
      cases h
      exact ih hmake

theorem isIo_of_ensureDirectories {fault : Fault} (h : ensureDirectories p m = (.error fault, m')) :
    fault.isIo = true := by
  unfold ensureDirectories at h
  simp only at h
  split at h
  · cases h
  · split at h
    · cases h
    · cases h
      rfl
  · next hmake =>
    cases h
    exact isIo_of_makeDirectories hmake

theorem ensureDirectories_of_isReached (hplace : settled p.place = p.place) (h : m.IsReached p) :
    ensureDirectories p m = (.ok (), m) := by
  have hmake (outer : List Text) :
      m.makeDirectories (p.place :: outer) = .error (.io .alreadyExists p.place) := by
    have htaken : (m.isFile p.place || m.wasMade p.place) = true := by
      unfold isFile
      rw [hplace, Bool.or_eq_true]
      exact h.taken
    unfold makeDirectories
    simp only [hplace, htaken, if_true]
  unfold ensureDirectories
  simp only [hmake, h.directory, if_true]

/-! ## 4. Names in a folder -/

theorem failure?_truncate (place : Text) (m : Memory) :
    (truncate place).failure? m = m.obstacle? place := by
  unfold Run.failure? truncate
  cases m.obstacle? place <;> rfl

/-- **What is in the way of a name stays in its way**, whatever is stored in the same folder. -/
theorem failure?_truncate_of_sameAround (h : SameAround path m m') (hname : name.IsPlain) :
    (truncate (path.child name).place).failure? m' =
      (truncate (path.child name).place).failure? m := by
  rw [failure?_truncate, failure?_truncate, MemoryPath.place_child path hname]
  unfold obstacle? wasMade
  rw [h.directories, List.find?_congr (isFile_of_mem_allAbove hname h.file?)]

/-! ## 5. Making the way and emptying the file -/

/-- All that is done before a file's content is asked for. -/
def prepare (path : MemoryPath) : Run Memory Unit :=
  ensureDirectories path.parent >>= fun _ => truncate path.place

/-- **What fails after the way was made once fails as it did before that**, and nothing else
does. -/
theorem failure?_prepare_of_sameAround {name' : Text} {k : Memory} (hname' : name'.IsPlain)
    (hmake : ensureDirectories (path.child name').parent m = (.ok (), k)) (h : SameAround path k m')
    (hname : name.IsPlain) :
    (prepare (path.child name)).failure? m' = (prepare (path.child name)).failure? m := by
  rw [MemoryPath.parent_child path hname' hname] at hmake
  have hplace := MemoryPath.settled_place_parent (path.child name)
  have hmake' := ensureDirectories_of_isReached hplace
      ((isReached_of_ensureDirectories hplace hmake).of_sameAround h)
  unfold prepare
  rw [Run.failure?_bind_of_ok hmake, Run.failure?_bind_of_ok hmake']
  exact failure?_truncate_of_sameAround h hname

end Memory

end IndexChain
