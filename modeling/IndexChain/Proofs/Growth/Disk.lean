import IndexChain.Proofs.Storage

/-!
# Growing disks — what is there when storing has failed

Storing a chunk makes the directories above it first, and it may fail at any time. Whatever came of
it, the disk has only grown towards the directory of the copy (`Disk.Grows`): chunks in that
directory may have changed, directories were made on the way to it where nothing was, and all else
is as it was.

**A name that is no chunk's reads as it did** (`readFile_of_grows`), if the path to the directory
goes straight on from the first place on it where nothing is (`Disk.Clear`). Otherwise a walk that
failed at a missing directory may go on now, and turn upwards to where something is.
-/

namespace IndexChain

namespace DiskPath

theorem foldl_stepFrom_of_down {steps : List Text} (h : ∀ step ∈ steps, step ≠ upwards)
    (place : List Text) : steps.foldl stepFrom place = place ++ steps := by
  induction steps generalizing place with
  | nil => rw [List.foldl_nil, List.append_nil]
  | cons step rest ih =>
    obtain ⟨hstep, hrest⟩ := List.forall_mem_cons.mp h
    rw [List.foldl_cons, stepFrom, if_neg hstep, ih hrest, List.append_assoc, List.singleton_append]

/-- The first steps of a path. -/
def upTo (p : DiskPath) (n : Nat) : DiskPath := ⟨p.root, p.steps.take n⟩

theorem parent_upTo (p : DiskPath) (n : Nat) : ∃ m, (p.upTo n).parent = p.upTo m := by
  refine ⟨min (min n p.steps.length - 1) n, ?_⟩
  unfold upTo parent
  rw [List.dropLast_eq_take, List.length_take, List.take_take]

theorem upTo_length (p : DiskPath) : p.upTo p.steps.length = p := by
  unfold upTo
  rw [List.take_length]

end DiskPath

namespace Disk

open DiskPath (stepFrom)

/-! ## 1. Disks that have grown -/

/-- What is anywhere is in a directory. -/
structure IsTree (d : Disk) : Prop where
  workplace : d.entry? d.workplace = some .directory
  parent : ∀ {place e}, d.entry? place = some e → d.entry? place.dropLast = some .directory

theorem isTree_of_entries {d : Disk} (hworkplace : d.entry? d.workplace = some .directory)
    (h : ∀ p ∈ d.entries, d.entry? p.1.dropLast = some .directory) : d.IsTree := by
  refine ⟨hworkplace, fun {place e} he => ?_⟩
  unfold entry? at he
  split at he
  · rename_i hroot
    rw [List.isEmpty_iff.mp hroot]
    rfl
  · exact h _ (Pairs.mem_of_get? he)

/-- A place on the way to where a path leads. -/
def OnWay (d : Disk) (path : DiskPath) (q : Place) : Prop :=
  ∃ n, q = (path.upTo n).placeFrom d.workplace

/-- A place of a chunk in the directory to which a path leads. -/
def IsChunk (d : Disk) (path : DiskPath) (q : Place) : Prop :=
  ∃ name, IsChunkName name ∧ q = path.placeFrom d.workplace ++ [name]

/-- Chunks in a directory may have changed, and directories were made on the way to it where nothing
    was. -/
structure Grows (path : DiskPath) (d d' : Disk) : Prop where
  workplace : d'.workplace = d.workplace
  directory : ∀ q, d.entry? q = some .directory → d'.entry? q = some .directory
  file : ∀ q, (d.file? q).isSome = true → (d'.file? q).isSome = true
  other : ∀ q, ¬d.IsChunk path q → d'.entry? q = d.entry? q ∨
    d.entry? q = none ∧ d'.entry? q = some .directory ∧ d.OnWay path q

namespace Grows

variable {path : DiskPath} {d e f : Disk}

theorem refl (path : DiskPath) (d : Disk) : Grows path d d :=
  ⟨rfl, fun _ h => h, fun _ h => h, fun _ _ => .inl rfl⟩

theorem trans (h : Grows path d e) (h' : Grows path e f) : Grows path d f := by
  refine ⟨h'.workplace.trans h.workplace, fun q hq => h'.directory q (h.directory q hq),
    fun q hq => h'.file q (h.file q hq), fun q hq => ?_⟩
  have hq' : ¬e.IsChunk path q := by
    unfold IsChunk
    rwa [h.workplace]
  rcases h.other q hq with hsame | ⟨hnone, hmade, hway⟩
  · rcases h'.other q hq' with hsame' | ⟨hnone, hmade, hway⟩
    · exact .inl (hsame'.trans hsame)
    · unfold OnWay at hway
      rw [h.workplace] at hway
      exact .inr ⟨hsame.symm.trans hnone, hmade, hway⟩
  · exact .inr ⟨hnone, h'.directory q hmade, hway⟩

/-- A place that is none of a chunk and not on the way holds what it held. -/
theorem entry?_eq (h : Grows path d e) {q : Place} (hchunk : ¬d.IsChunk path q)
    (hway : d.entry? q = none → ¬d.OnWay path q) : e.entry? q = d.entry? q := by
  rcases h.other q hchunk with hsame | ⟨hnone, -, hon⟩
  · exact hsame
  · exact absurd hon (hway hnone)

theorem exists_file (h : Grows path d e) {q : Place} {content : Bytes}
    (hq : d.entry? q = some (.file content)) : ∃ content', e.entry? q = some (.file content') := by
  have hfile := h.file q
  unfold file? at hfile
  rw [hq] at hfile
  rcases hentry : e.entry? q with _ | (_ | content')
  · rw [hentry] at hfile
    cases hfile rfl
  · rw [hentry] at hfile
    cases hfile rfl
  · exact ⟨content', rfl⟩

end Grows

/-! ## 2. Directories and files that are made -/

section Made

variable {path : DiskPath} {d d' : Disk}

theorem grows_makeDirectory {n : Nat} (h : d.makeDirectory (path.upTo n) = .ok d') :
    Grows path d d' := by
  unfold makeDirectory at h
  split at h
  · cases h
  · cases h
  · rename_i place hlocate
    cases h
    obtain ⟨hplace, hentry⟩ := locate_eq_ok hlocate
    have hnone : d.entry? place = none := hentry.resolve_left (by simp)
    have hroot : place ≠ [] := by
      rintro rfl
      cases hnone
    refine ⟨rfl, fun q hq => ?_, fun q hq => ?_, fun q _ => ?_⟩
    · rw [entry?_set _ hroot]
      split
      · rfl
      · exact hq
    · unfold file? at hq ⊢
      rw [entry?_set _ hroot]
      by_cases heq : place = q
      · -- no file was there
        rw [← heq, hnone] at hq
        cases hq
      · rw [if_neg heq]
        exact hq
    · rw [entry?_set _ hroot]
      split
      · rename_i heq
        exact .inr ⟨heq ▸ hnone, rfl, n, heq ▸ hplace⟩
      · exact .inl rfl

theorem ensureDirectory_grows (path : DiskPath) (n : Nat) :
    Run.Within (Grows path) (ensureDirectory (path.upTo n)) := by
  intro d
  unfold ensureDirectory
  split
  · rename_i d' hmade
    exact grows_makeDirectory hmade
  · exact .refl path d
  · split <;> exact .refl path d

theorem ensureAll_grows (path : DiskPath) (n above : Nat) :
    Run.Within (Grows path) (ensureAll (path.upTo n) above) := by
  induction above generalizing n with
  | zero => exact ensureDirectory_grows path n
  | succ above ih =>
    intro d
    unfold ensureAll
    obtain ⟨m, hparent⟩ := path.parent_upTo n
    split
    · have habove := ih m d
      rw [hparent]
      split
      · rename_i hfailed
        rw [hfailed] at habove
        exact habove
      · rename_i hdone
        rw [hdone] at habove
        exact habove.trans (ensureDirectory_grows path n _)
    · exact ensureDirectory_grows path n d

/-- Making a directory and all above it. -/
theorem ensureDirectories_grows (path : DiskPath) :
    Run.Within (Grows path) (ensureDirectories path) := by
  unfold ensureDirectories
  split
  · exact Grows.refl path
  · have hall := ensureAll_grows path path.steps.length path.steps.length
    rw [path.upTo_length] at hall
    exact hall

/-- Writing a chunk where there is no directory. -/
theorem put_grows {name : Text} (hname : IsChunkName name)
    (hentry : d.entry? (path.placeFrom d.workplace ++ [name]) ≠ some .directory) (content : Bytes) :
    Grows path d (d.put (path.placeFrom d.workplace ++ [name]) content) := by
  have hroot : path.placeFrom d.workplace ++ [name] ≠ [] := by simp
  refine ⟨rfl, fun q hq => ?_, fun q hq => ?_, fun q hq => ?_⟩
  · unfold put
    have hne : path.placeFrom d.workplace ++ [name] ≠ q := by
      rintro rfl
      exact hentry hq
    rw [entry?_set _ hroot, if_neg hne]
    exact hq
  · rw [file?_put hroot]
    split
    · rfl
    · exact hq
  · unfold put
    rw [entry?_set _ hroot, if_neg fun h => hq ⟨name, hname, h.symm⟩]
    exact .inl rfl

/-- Emptying a file fails and does nothing, or it is done where no directory is. -/
theorem truncate_cases (path : DiskPath) (d : Disk) :
    (∃ fault, truncate path d = (.error fault, d)) ∨
      d.entry? (path.placeFrom d.workplace) ≠ some .directory ∧
        truncate path d =
          (.ok (path.placeFrom d.workplace), d.put (path.placeFrom d.workplace) []) := by
  unfold truncate
  split
  · exact .inl ⟨_, rfl⟩
  split
  · exact .inl ⟨_, rfl⟩
  · exact .inl ⟨_, rfl⟩
  · rename_i place e hdirectory hlocate
    obtain ⟨rfl, hentry⟩ := locate_eq_ok hlocate
    refine .inr ⟨?_, rfl⟩
    rw [hentry.resolve_left hdirectory]
    exact hdirectory

end Made

/-! ## 3. What paths lead to -/

/-- What is found at the end of a walk: a file or nothing. -/
def found : Except IoKind (Place × Option Entry) → Except IoKind (Option Bytes)
  | .ok (_, some (.file content)) => .ok (some content)
  | .ok (_, some .directory) => .error .isDirectory
  | .ok (_, none) => .ok none
  | .error .notFound => .ok none
  | .error kind => .error kind

/-- No step behind the first one to where nothing is leads upwards or has too long a name. -/
def ClearFrom (d : Disk) (place : Place) : List Text → Prop
  | [] => True
  | step :: rest =>
    if step = DiskPath.upwards then ClearFrom d place.dropLast rest
    else if nameLimit < byteCount step then True
    else
      match d.entry? (place ++ [step]) with
      | some .directory => ClearFrom d (place ++ [step]) rest
      | some (.file _) => True
      | none => ∀ step ∈ rest, step ≠ DiskPath.upwards ∧ ¬nameLimit < byteCount step

/-- The place to which the first steps of a path lead. -/
def placeAlong (d : Disk) (path : DiskPath) (before : List Text) : Place :=
  before.foldl stepFrom (if path.root = 0 then d.workplace else [])

/-- A path that goes straight on from the first place on it where nothing is. -/
def Clear (d : Disk) (path : DiskPath) : Prop := d.ClearFrom (d.placeAlong path []) path.steps

/-- A path straight down, by names that are not too long. -/
theorem clear_of_down (d : Disk) {path : DiskPath}
    (h : ∀ step ∈ path.steps, step ≠ DiskPath.upwards ∧ ¬nameLimit < byteCount step) :
    d.Clear path := by
  unfold Clear
  generalize path.steps = steps at h
  generalize d.placeAlong path [] = place
  induction steps generalizing place with
  | nil => trivial
  | cons step rest ih =>
    obtain ⟨⟨hstep, hlimit⟩, hrest⟩ := List.forall_mem_cons.mp h
    unfold ClearFrom
    rw [if_neg hstep, if_neg hlimit]
    split
    · exact ih hrest _
    · trivial
    · exact hrest

/-- A step down, by a name that is not too long. -/
theorem walk_down (d : Disk) (place : Place) {step : Text} (hstep : step ≠ DiskPath.upwards)
    (hlimit : ¬nameLimit < byteCount step) (rest : List Text) :
    d.walk place (step :: rest) =
      match d.entry? (place ++ [step]) with
      | some .directory => d.walk (place ++ [step]) rest
      | some (.file content) =>
        if rest.isEmpty then .ok (place ++ [step], some (.file content)) else .error .notDirectory
      | none => if rest.isEmpty then .ok (place ++ [step], none) else .error .notFound := by
  rw [walk, if_neg hstep]
  exact if_neg hlimit

/-- Nothing is below a place where nothing is. -/
theorem IsTree.entry?_append {d : Disk} (hd : d.IsTree) {place : Place} (h : d.entry? place = none)
    (more : List Text) : d.entry? (place ++ more) = none := by
  induction more using List.reverseRecOn with
  | nil => rwa [List.append_nil]
  | append_singleton more step ih =>
    by_contra hsome
    obtain ⟨e, he⟩ := Option.ne_none_iff_exists'.mp hsome
    have hparent := hd.parent he
    rw [← List.append_assoc, List.dropLast_concat, ih] at hparent
    cases hparent

/-- A walk straight on, along which no file is, finds nothing where nothing is. -/
theorem found_walk_of_down {d : Disk} {place : Place} {steps : List Text} (hne : steps ≠ [])
    (hdown : ∀ step ∈ steps, step ≠ DiskPath.upwards ∧ ¬nameLimit < byteCount step)
    (hfile : ∀ more, more <+: steps → d.file? (place ++ more) = none)
    (hend : d.entry? (place ++ steps) = none) : found (d.walk place steps) = .ok none := by
  induction steps generalizing place with
  | nil => exact absurd rfl hne
  | cons step rest ih =>
    obtain ⟨⟨hstep, hlimit⟩, hrest⟩ := List.forall_mem_cons.mp hdown
    have hassoc : ∀ more, place ++ step :: more = place ++ [step] ++ more := fun more => by simp
    rw [walk_down d place hstep hlimit]
    rcases hentry : d.entry? (place ++ [step]) with _ | (_ | content)
    · -- nothing is there, be it the end or not
      cases rest <;> rfl
    · rw [hassoc] at hend
      have hrestne : rest ≠ [] := by
        rintro rfl
        rw [List.append_nil, hentry] at hend
        cases hend
      refine ih hrestne hrest (fun more hmore => ?_) hend
      rw [← hassoc]
      exact hfile _ (List.cons_prefix_cons.mpr ⟨rfl, hmore⟩)
    · have hnone := hfile [step] (List.cons_prefix_cons.mpr ⟨rfl, List.nil_prefix⟩)
      unfold file? at hnone
      rw [hentry] at hnone
      cases hnone

/-- A walk along a path that has come, over directories, to where the first steps lead. -/
structure Along (d : Disk) (path : DiskPath) (before after : List Text) : Prop where
  steps : before ++ after = path.steps
  directories : ∀ n ≤ before.length,
    d.entry? ((path.upTo n).placeFrom d.workplace) = some .directory

namespace Along

variable {path : DiskPath} {d : Disk} {before after rest : List Text} {step : Text}

theorem start (hd : d.IsTree) (path : DiskPath) : d.Along path [] path.steps where
  steps := rfl
  directories n hn := by
    obtain rfl := Nat.le_zero.mp hn
    show d.entry? (if path.root = 0 then d.workplace else []) = some .directory
    split
    · exact hd.workplace
    · rfl

theorem placeFrom_upTo (h : d.Along path before after) (n : Nat) :
    (path.upTo (before.length + n)).placeFrom d.workplace =
      (after.take n).foldl stepFrom (d.placeAlong path before) := by
  unfold DiskPath.placeFrom DiskPath.upTo placeAlong
  rw [← h.steps, List.take_length_add_append, List.foldl_append]

theorem placeFrom (h : d.Along path before after) :
    path.placeFrom d.workplace = after.foldl stepFrom (d.placeAlong path before) := by
  have hwhole := h.placeFrom_upTo after.length
  rwa [← List.length_append, h.steps, path.upTo_length, List.take_length] at hwhole

theorem directory (h : d.Along path before after) :
    d.entry? (d.placeAlong path before) = some .directory := by
  have hhere := h.placeFrom_upTo 0
  rw [List.take_zero, List.foldl_nil] at hhere
  rw [← hhere]
  exact h.directories before.length (Nat.le_refl _)

/-- One directory more. -/
theorem next (h : d.Along path before (step :: rest))
    (hmore : d.entry? (stepFrom (d.placeAlong path before) step) = some .directory) :
    d.Along path (before ++ [step]) rest where
  steps := by rw [List.append_assoc, List.singleton_append, h.steps]
  directories n hn := by
    rw [List.length_append, List.length_singleton] at hn
    rcases Nat.le_or_eq_of_le_succ hn with hn | rfl
    · exact h.directories n hn
    · rw [h.placeFrom_upTo 1]
      exact hmore

/-- What is missing on the way comes after the directories. -/
theorem exists_of_onWay (h : d.Along path before after) {q : Place} (hnone : d.entry? q = none)
    (hway : d.OnWay path q) :
    ∃ n, q = (after.take n).foldl stepFrom (d.placeAlong path before) := by
  obtain ⟨n, rfl⟩ := hway
  rcases Nat.le_total n before.length with hn | hn
  · rw [h.directories n hn] at hnone
    cases hnone
  · obtain ⟨k, rfl⟩ := Nat.exists_eq_add_of_le hn
    exact ⟨k, h.placeFrom_upTo k⟩

end Along

theorem placeAlong_append (d : Disk) (path : DiskPath) (before : List Text) (step : Text) :
    d.placeAlong path (before ++ [step]) = stepFrom (d.placeAlong path before) step := by
  unfold placeAlong
  rw [List.foldl_append, List.foldl_cons, List.foldl_nil]

section Found

variable {path : DiskPath} {d d' : Disk} {before after rest : List Text} {name step : Text}

/-- Where a walk finds nothing on its way, it finds nothing still, if it goes straight on. -/
theorem found_walk_of_missing (hd : d.IsTree) (h : Grows path d d') (hname : name.IsPlain)
    (hnot : ¬IsChunkName name) (hlimit : ¬nameLimit < byteCount name)
    (halong : d.Along path before (step :: rest))
    (hdown : ∀ step' ∈ step :: rest, step' ≠ DiskPath.upwards ∧ ¬nameLimit < byteCount step')
    (hnone : d.entry? (d.placeAlong path before ++ [step]) = none) :
    found (d'.walk (d.placeAlong path before) (step :: (rest ++ [name]))) = .ok none := by
  -- all that follows is below the place where nothing is
  have hbelow (more : List Text) : d.entry? (d.placeAlong path before ++ step :: more) = none := by
    have hmore := hd.entry?_append hnone more
    rwa [List.append_assoc, List.singleton_append] at hmore
  have hend := halong.placeFrom
  rw [DiskPath.foldl_stepFrom_of_down fun s hs => (hdown s hs).1] at hend
  have hchunk {more : List Text} (hmore : more <+: rest ++ [name]) :
      ¬d.IsChunk path (d.placeAlong path before ++ step :: more) := by
    rintro ⟨other, hother, heq⟩
    rw [hend, List.append_assoc, List.append_cancel_left_eq, List.cons_append, List.cons.injEq]
      at heq
    obtain ⟨-, rfl⟩ := heq
    have hsame := hmore.eq_of_length (by simp)
    exact hnot (List.singleton_inj.mp (List.append_cancel_left hsame) ▸ hother)
  refine found_walk_of_down (List.cons_ne_nil _ _) ?_ (fun more hmore => ?_) ?_
  · intro step' hstep'
    rw [← List.cons_append] at hstep'
    rcases List.mem_append.mp hstep' with hstep' | hstep'
    · exact hdown step' hstep'
    · rw [List.mem_singleton.mp hstep']
      exact ⟨hname.ne_upwards, hlimit⟩
  · -- on the way there are directories at most
    have hmade : d'.entry? (d.placeAlong path before ++ more) = none ∨
        d'.entry? (d.placeAlong path before ++ more) = some .directory := by
      cases more with
      | nil =>
        rw [List.append_nil]
        exact .inr (h.directory _ halong.directory)
      | cons step' more =>
        obtain ⟨rfl, hrest⟩ := List.cons_prefix_cons.mp hmore
        rcases h.other _ (hchunk hrest) with hsame | ⟨-, hmade, -⟩
        · exact .inl (hsame.trans (hbelow more))
        · exact .inr hmade
    unfold file?
    rcases hmade with hmade | hmade <;> rw [hmade]
  · -- and the end is not on the way
    refine (h.entry?_eq (hchunk (List.prefix_refl _)) fun hnone hway => ?_).trans (hbelow _)
    obtain ⟨n, hn⟩ := halong.exists_of_onWay hnone hway
    rw [DiskPath.foldl_stepFrom_of_down fun s hs => (hdown s (List.mem_of_mem_take hs)).1,
      List.append_cancel_left_eq] at hn
    have hlength := congrArg List.length hn
    simp only [List.length_append, List.length_cons, List.length_take, List.length_nil] at hlength
    omega

/-- **A walk along the way finds what it found**, if it goes straight on from where nothing was. -/
theorem found_walk_of_grows (hd : d.IsTree) (h : Grows path d d') (hname : name.IsPlain)
    (hnot : ¬IsChunkName name) (hlimit : ¬nameLimit < byteCount name)
    (halong : d.Along path before after) (hclear : d.ClearFrom (d.placeAlong path before) after) :
    found (d'.walk (d.placeAlong path before) (after ++ [name])) =
      found (d.walk (d.placeAlong path before) (after ++ [name])) := by
  induction after generalizing before with
  | nil =>
    have hend : path.placeFrom d.workplace = d.placeAlong path before := halong.placeFrom
    have hentry : d'.entry? (d.placeAlong path before ++ [name]) =
        d.entry? (d.placeAlong path before ++ [name]) := by
      refine h.entry?_eq ?_ fun hnone hway => ?_
      · rintro ⟨other, hother, heq⟩
        rw [hend] at heq
        exact hnot (List.singleton_inj.mp (List.append_cancel_left heq) ▸ hother)
      · obtain ⟨n, hn⟩ := halong.exists_of_onWay hnone hway
        rw [List.take_nil, List.foldl_nil] at hn
        exact absurd (congrArg List.length hn) (by simp)
    rw [List.nil_append, walk_down _ _ hname.ne_upwards hlimit,
      walk_down _ _ hname.ne_upwards hlimit, hentry]
    rcases d.entry? (d.placeAlong path before ++ [name]) with _ | (_ | content) <;> rfl
  | cons step rest ih =>
    have ih := fun hmore => ih (halong.next hmore)
    rw [placeAlong_append] at ih
    unfold ClearFrom at hclear
    rw [List.cons_append]
    by_cases hstep : step = DiskPath.upwards
    · subst hstep
      rw [if_pos rfl] at hclear
      rw [stepFrom, if_pos rfl] at ih
      rw [walk, walk, if_pos rfl, if_pos rfl]
      exact ih (hd.parent halong.directory) hclear
    rw [if_neg hstep] at hclear
    rw [stepFrom, if_neg hstep] at ih
    by_cases hlong : nameLimit < byteCount step
    · rw [walk, walk, if_neg hstep, if_neg hstep, if_pos hlong, if_pos hlong]
    rw [if_neg hlong] at hclear
    have hrest : (rest ++ [name]).isEmpty = false := by simp
    rw [walk_down d _ hstep hlong]
    rcases hentry : d.entry? (d.placeAlong path before ++ [step]) with _ | (_ | content)
    · -- nothing was there, and what is there now leads to nothing
      rw [hentry] at hclear
      rw [found_walk_of_missing hd h hname hnot hlimit halong
        (List.forall_mem_cons.mpr ⟨⟨hstep, hlong⟩, hclear⟩) hentry]
      simp only [hrest]
      rfl
    · rw [hentry] at hclear
      rw [walk_down d' _ hstep hlong, h.directory _ hentry]
      exact ih hentry hclear
    · -- a file stays a file
      obtain ⟨content', hentry'⟩ := h.exists_file hentry
      rw [walk_down d' _ hstep hlong, hentry']
      simp only [hrest]
      rfl

/-- What is found under a name that is no chunk's is what was found. -/
theorem found_locate_of_grows (hd : d.IsTree) (h : Grows path d d') (hclear : d.Clear path)
    (hname : name.IsPlain) (hnot : ¬IsChunkName name) (hlimit : ¬nameLimit < byteCount name) :
    found (d'.locate (path.child name)) = found (d.locate (path.child name)) := by
  unfold locate
  rw [DiskPath.child_of_isPlain path hname, h.workplace]
  split
  · rfl
  · exact found_walk_of_grows hd h hname hnot hlimit (.start hd path) hclear

/-- Reading tells what was found. -/
theorem readFile_eq (d : Disk) (path : DiskPath) :
    d.readFile path =
      match unaskable? path with
      | some fault => .error fault
      | none =>
        match found (d.locate path) with
        | .error kind => .error (failure kind path)
        | .ok none => .error (failure .notFound path)
        | .ok (some content) => .ok content := by
  unfold readFile openFile
  cases unaskable? path with
  | some fault => rfl
  | none =>
    simp only
    rcases hlocate : d.locate path with kind | ⟨place, _ | (_ | content)⟩
    · cases kind <;> rfl
    · rfl
    · rfl
    · have hentry := (locate_eq_ok hlocate).2.resolve_left nofun
      simp only [Except.map, contentAt, hentry]
      rfl

/-- **A name that is no chunk's reads as it did.** -/
theorem readFile_of_grows (hd : d.IsTree) (h : Grows path d d') (hclear : d.Clear path)
    (hname : name.IsPlain) (hnot : ¬IsChunkName name) (hlimit : ¬nameLimit < byteCount name) :
    d'.readFile (path.child name) = d.readFile (path.child name) := by
  rw [readFile_eq, readFile_eq, found_locate_of_grows hd h hclear hname hnot hlimit]

end Found

end Disk

end IndexChain
