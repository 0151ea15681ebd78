import IndexChain.Proofs.Storage
import Mathlib.Data.List.DropRight
import Mathlib.Data.List.Find

/-!
# Growing memory — what is there when storing has failed

In memory the directories above a chunk are made first, too, and then the chunk may fail to be
stored. They are shorter than any file of the copy (`MemoryPath.extent`), and so is what is above
such a file. Hence **a name that is no chunk's reads as it did** (`readFile_of_grows`), wherever the
copy is.
-/

namespace IndexChain

open DiskPath (slash)

namespace MemoryPath

/-! ## 1. What is above a path -/

/-- The length of a path without the slashes in front. -/
def extent (t : Text) : Nat := (t.dropWhile isSlash).length

theorem extent_le_of_suffix {t u : Text} (h : t <:+ u) : extent t ≤ extent u := by
  obtain ⟨before, rfl⟩ := h
  unfold extent
  rw [List.dropWhile_append]
  split
  · exact Nat.le_refl _
  · rw [List.length_append]
    have hdrop : (t.dropWhile isSlash).length ≤ t.length := (List.dropWhile_suffix _).length_le
    omega

theorem extent_le_of_prefix {t u : Text} (h : t <+: u) : extent t ≤ extent u := by
  obtain ⟨after, rfl⟩ := h
  unfold extent
  rw [List.dropWhile_append]
  split
  · rename_i hnil
    rw [List.isEmpty_iff.mp hnil]
    exact Nat.zero_le _
  · rw [List.length_append]
    omega

theorem extent_cons_slash (t : Text) : extent (slash :: t) = extent t := by
  unfold extent
  rw [List.dropWhile_cons_of_pos (isSlash_iff.mpr rfl)]

theorem extent_dropWhile (t : Text) : extent (t.dropWhile isSlash) = extent t :=
  congrArg List.length (List.dropWhile_idempotent isSlash t)

theorem extent_append (t : Text) {name : Text} (h : name.IsPlain) :
    extent (t ++ name) = extent t + name.length := by
  unfold extent
  rw [dropWhile_append t h, List.length_append]

theorem extent_settled_le (t : Text) : extent (settled t) ≤ extent t := by
  have hafter : (Text.afterStart? start t).getD t <:+ t := by
    cases h : Text.afterStart? start t with
    | none => exact List.suffix_refl t
    | some rest =>
      rw [Text.afterStart?_eq_some_iff.mp h]
      exact List.suffix_append start rest
  refine Nat.le_trans ?_ (extent_le_of_suffix hafter)
  have htrim (u : Text) : extent (Text.trimEnd isSlash u) ≤ extent u :=
    extent_le_of_prefix (List.reverse_suffix.mp (by
      rw [Text.trimEnd, List.reverse_reverse]
      exact List.dropWhile_suffix _))
  unfold settled
  simp only
  generalize (Text.afterStart? start t).getD t = u
  split
  · exact htrim u
  · have hrest := htrim (u.dropWhile isSlash)
    rw [extent_dropWhile] at hrest
    cases htrimmed : Text.trimEnd isSlash (u.dropWhile isSlash) with
    | nil => exact Nat.zero_le _
    | cons c rest =>
      rw [htrimmed] at hrest
      simp only
      rwa [extent_cons_slash]

/-- What is above a path reaches no further than what is in front of its last name. -/
theorem extent_above_le {t front name : Text} (ht : settled t = front ++ name)
    (hname : slash ∉ name) : extent (above t) ≤ extent front := by
  have hnot : ∀ c ∈ name.reverse, (!isSlash c) = true := by
    intro c hc
    rw [Bool.not_eq_true', Bool.eq_false_iff, ne_eq, isSlash_iff]
    rintro rfl
    exact hname (List.mem_reverse.mp hc)
  unfold above
  simp only
  rw [extent_cons_slash, extent_dropWhile, ht, List.reverse_append,
    List.dropWhile_append_of_pos hnot]
  refine extent_le_of_prefix (List.reverse_suffix.mp ?_)
  rw [List.reverse_reverse]
  exact (List.drop_suffix _ _).trans (List.dropWhile_suffix _)

theorem extent_above_le_extent (t : Text) : extent (above t) ≤ extent t :=
  (extent_above_le (List.append_nil _).symm List.not_mem_nil).trans (extent_settled_le t)

theorem extent_of_mem_allAbove {t p : Text} (h : p ∈ allAbove t) : extent p ≤ extent (above t) := by
  unfold allAbove at h
  generalize t.length = steps at h
  induction steps generalizing t with
  | zero => cases h
  | succ steps ih =>
    unfold allAbove.go at h
    split at h
    · cases h
    · rcases List.mem_cons.mp h with rfl | h
      · exact Nat.le_refl _
      · exact (ih h).trans (extent_above_le_extent _)

/-- What is above a file reaches no further than the folder it is in. -/
theorem extent_above_child_le (stem : Text) {name : Text} (h : name.IsPlain) :
    extent (above (stem ++ name)) ≤ extent stem := by
  refine (extent_above_le (settled_append stem h) h.noSlash).trans ?_
  have hsettled := extent_settled_le (stem ++ name)
  rw [settled_append stem h, extent_append _ h, extent_append _ h] at hsettled
  omega

/-- No directory above the files of a folder reaches further than the folder. -/
theorem extent_parent_child_le (p : MemoryPath) {name : Text} (h : name.IsPlain) :
    extent (p.child name).parent.place ≤ extent p.stem := by
  have habove : extent (above (p.child name).path) ≤ extent p.stem :=
    extent_above_le (place_child p h) h.noSlash
  exact (extent_settled_le _).trans ((extent_settled_le _).trans habove)

end MemoryPath

namespace Memory

open MemoryPath (extent)

/-! ## 2. Memory that has grown -/

/-- Chunks below a path may have changed, and directories above them were made. -/
structure Grows (path : MemoryPath) (m m' : Memory) : Prop where
  file? : ∀ q, (∀ name, IsChunkName name → q ≠ path.stem ++ name) → m'.file? q = m.file? q
  directories : ∀ q, extent path.stem < extent q → (q ∈ m'.directories ↔ q ∈ m.directories)

namespace Grows

variable {path : MemoryPath} {m n k : Memory}

theorem refl (path : MemoryPath) (m : Memory) : Grows path m m := ⟨fun _ _ => rfl, fun _ _ => .rfl⟩

theorem trans (h : Grows path m n) (h' : Grows path n k) : Grows path m k :=
  ⟨fun q hq => (h'.file? q hq).trans (h.file? q hq),
    fun q hq => (h'.directories q hq).trans (h.directories q hq)⟩

end Grows

theorem directories_makeDirectories {m m' : Memory} {paths : List Text}
    (h : m.makeDirectories paths = .ok m') {q : Text}
    (hq : ∀ path ∈ paths, extent path < extent q) : q ∈ m'.directories ↔ q ∈ m.directories := by
  induction paths generalizing m' with
  | nil =>
    cases h
    rfl
  | cons path outer ih =>
    obtain ⟨hpath, houter⟩ := List.forall_mem_cons.mp hq
    have hne : q ≠ MemoryPath.settled path := by
      rintro rfl
      exact absurd (MemoryPath.extent_settled_le path) (Nat.not_le.mpr hpath)
    have hadd (n : Memory) : q ∈ (n.addDirectory (MemoryPath.settled path)).directories ↔
        q ∈ n.directories := by
      simp [addDirectory, hne]
    unfold makeDirectories at h
    simp only at h
    split at h
    · cases h
    split at h
    · cases h
    split at h
    · rename_i hmade
      cases h
      exact (hadd _).trans (ih hmade houter)
    · cases h
      exact hadd m
    · cases h

/-! ## 3. Directories and files that are made -/

section Made

variable {path : MemoryPath} {name : Text}

theorem ensureDirectories_grows (hname : name.IsPlain) :
    Run.Within (Grows path) (ensureDirectories (path.child name).parent) := by
  intro m
  have hplace := MemoryPath.extent_parent_child_le path hname
  unfold ensureDirectories
  simp only
  split
  · rename_i m' hmade
    refine ⟨fun q _ => ?_, fun q hq => directories_makeDirectories hmade fun p hp => ?_⟩
    · unfold file?
      rw [files_makeDirectories hmade]
    · rcases List.mem_cons.mp hp with rfl | hp
      · exact hplace.trans_lt hq
      · have habove := MemoryPath.extent_of_mem_allAbove (List.mem_of_mem_filter hp)
        exact (habove.trans ((MemoryPath.extent_above_le_extent _).trans hplace)).trans_lt hq
  · split <;> exact .refl path m
  · exact .refl path m

theorem put_grows (hname : IsChunkName name) (m : Memory) (content : Bytes) :
    Grows path m (m.put (path.stem ++ name) content) := by
  refine ⟨fun q hq => ?_, fun _ _ => .rfl⟩
  rw [file?_put, if_neg fun h => hq name hname h.symm]

/-- What is above a file of a folder is none of the folder's files. -/
theorem isFile_of_mem_allAbove {m m' : Memory} (hname : name.IsPlain)
    (h : ∀ q, (∀ name, Text.IsPlain name → q ≠ path.stem ++ name) → m'.file? q = m.file? q) :
    ∀ p ∈ MemoryPath.allAbove (path.stem ++ name), m'.isFile p = m.isFile p := by
  intro p hp
  have hfile := h (MemoryPath.settled p) fun other hother heq => by
    have hp' := (MemoryPath.extent_settled_le p).trans
      ((MemoryPath.extent_of_mem_allAbove hp).trans
        (MemoryPath.extent_above_child_le path.stem hname))
    rw [heq, MemoryPath.extent_append _ hother] at hp'
    have := hother.long
    omega
  unfold file? at hfile
  unfold isFile
  rw [hfile]

/-- **A name that is no chunk's reads as it did.** -/
theorem readFile_of_grows {m m' : Memory} (h : Grows path m m') (hname : name.IsPlain)
    (hnot : ¬IsChunkName name) :
    m'.readFile (path.child name).place = m.readFile (path.child name).place := by
  rw [MemoryPath.place_child path hname]
  have hlong : extent path.stem < extent (path.stem ++ name) := by
    rw [MemoryPath.extent_append _ hname]
    have := hname.long
    omega
  have hmade : m'.wasMade (path.stem ++ name) = m.wasMade (path.stem ++ name) := by
    unfold wasMade
    rw [Bool.eq_iff_iff]
    simp only [Bool.or_eq_true, List.contains_iff_mem, h.directories _ hlong]
  have habove := isFile_of_mem_allAbove hname fun q hq => h.file? q fun other hother =>
    hq other hother.isPlain
  have hcontent : m'.file? (path.stem ++ name) = m.file? (path.stem ++ name) :=
    h.file? _ fun other hother heq => hnot (List.append_cancel_left heq ▸ hother)
  unfold file? at hcontent
  unfold readFile obstacle?
  rw [hmade, List.find?_congr habove, hcontent]

end Made

end Memory

end IndexChain
