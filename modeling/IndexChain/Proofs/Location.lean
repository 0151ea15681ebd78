import IndexChain.Location
import IndexChain.Plan
import IndexChain.Proofs.Text

/-!
# Locations — the directory that a location denotes

Two spellings of a location can denote one directory, and where a resource of a location is found is
decided by rules that differ between the stores. What all of them have in common is stated here
once: **a location denotes a folder, and a plain name denotes the file of that name in it**
(`DiskPath.place_child`, `MemoryPath.place_child`). A folder on the disk is a place, since there are
no links and steps upwards undo the last one; a folder in memory is the part that all its files'
places begin with, up to a slash. So **different folders have no file in common**
(`Folder.spot_ne`).

All resources of an index have plain names (`isPlain_of_mem_chunkNames`).
-/

namespace IndexChain

open DiskPath (slash)

/-! ## 1. Plain names -/

/-- A name that leads one step down, in whatever store. -/
structure Text.IsPlain (name : Text) : Prop where
  noSlash : slash ∉ name
  noColon : CodePoint.ofChar ':' ∉ name
  long : 2 < name.length

namespace Text.IsPlain

variable {name : Text}

theorem ne_nil (h : name.IsPlain) : name ≠ [] := by
  rintro rfl
  exact absurd h.long (by decide)

theorem ne_dot (h : name.IsPlain) : name ≠ "." := by
  rintro rfl
  exact absurd h.long (by decide)

theorem ne_upwards (h : name.IsPlain) : name ≠ DiskPath.upwards := by
  rintro rfl
  exact absurd h.long (by decide)

theorem not_isSlash (h : name.IsPlain) {c : CodePoint} (hc : c ∈ name) :
    MemoryPath.isSlash c = false := by
  simp only [MemoryPath.isSlash, decide_eq_false_iff_not]
  exact fun e => h.noSlash (e ▸ hc)

end Text.IsPlain

/-- What begins like all resource names of an index is plain if the rest is. -/
theorem isPlain_resource {rest : Text} (hslash : slash ∉ rest)
    (hcolon : CodePoint.ofChar ':' ∉ rest) : (Manifest.resourceStem ++ rest).IsPlain where
  noSlash hmem := (List.mem_append.mp hmem).elim (by decide) hslash
  noColon hmem := (List.mem_append.mp hmem).elim (by decide) hcolon
  long := by
    rw [List.length_append]
    have hstem : 2 < Manifest.resourceStem.length := by decide
    omega

theorem isPlain_chunkName (counter : Int) : (chunkName counter).IsPlain := by
  -- what is neither a digit nor a minus sign stands in no counter
  have hval {p : CodePoint} (hp : p.val < 45 ∨ 57 < p.val ∨ p.val = 46 ∨ p.val = 47)
      (hdot : p ∉ (("." : Text) : List CodePoint)) (hend : p ∉ ((".gz" : Text) : List CodePoint)) :
      p ∉ ("." : Text) ++ Text.ofInt counter ++ (".gz" : Text) := by
    intro hmem
    rcases List.mem_append.mp hmem with hmem | hmem
    · rcases List.mem_append.mp hmem with hmem | hmem
      · exact hdot hmem
      · have := Text.val_of_mem_ofInt hmem
        omega
    · exact hend hmem
  have heq : chunkName counter =
      Manifest.resourceStem ++ (("." : Text) ++ Text.ofInt counter ++ (".gz" : Text)) := by
    simp [chunkName]
  rw [heq]
  exact isPlain_resource (hval (by decide) (by decide) (by decide))
    (hval (by decide) (by decide) (by decide))

theorem isPlain_of_mem_chunkNames {plan : Plan} {name : Text} (h : name ∈ plan.chunkNames) :
    name.IsPlain := by
  cases plan with
  | full reason =>
    obtain rfl := List.mem_singleton.mp h
    exact ⟨by decide, by decide, by decide⟩
  | incremental first last =>
    obtain ⟨counter, -, rfl⟩ := List.mem_map.mp h
    exact isPlain_chunkName counter

theorem isPlain_resourceName : Manifest.resourceName.IsPlain := ⟨by decide, by decide, by decide⟩

/-- The manifest is none of the chunks: their names end differently. -/
theorem resourceName_not_mem_chunkNames (plan : Plan) :
    Manifest.resourceName ∉ plan.chunkNames := by
  intro h
  cases plan with
  | full reason => exact absurd (List.mem_singleton.mp h) (by decide)
  | incremental first last =>
    obtain ⟨counter, -, heq⟩ := List.mem_map.mp h
    have hlast := congrArg List.getLast? heq
    rw [chunkName, List.getLast?_append_of_ne_nil _ (by decide)] at hlast
    exact absurd hlast (by decide)

/-- The name of a chunk of some plan. -/
def IsChunkName (name : Text) : Prop := ∃ plan : Plan, name ∈ plan.chunkNames

theorem IsChunkName.isPlain {name : Text} (h : IsChunkName name) : name.IsPlain := by
  obtain ⟨plan, hplan⟩ := h
  exact isPlain_of_mem_chunkNames hplan

theorem not_isChunkName_resourceName : ¬IsChunkName Manifest.resourceName := by
  rintro ⟨plan, hplan⟩
  exact resourceName_not_mem_chunkNames plan hplan

/-! ## 2. Folders on the disk -/

namespace DiskPath

/-- Where a step leads from a place: up to what it is in, or down. -/
def stepFrom (place : List Text) (step : Text) : List Text :=
  if step = upwards then place.dropLast else place ++ [step]

/-- The place that a path denotes, for a place from which paths without a root start. -/
def placeFrom (workplace : List Text) (p : DiskPath) : List Text :=
  p.steps.foldl stepFrom (if p.root = 0 then workplace else [])

theorem child_of_isPlain (p : DiskPath) {name : Text} (h : name.IsPlain) :
    p.child name = ⟨p.root, p.steps ++ [name]⟩ := by
  have hsteps : stepsOf name = [name] := by
    rw [stepsOf, Text.splitAt_of_not_mem h.noSlash]
    simp [h.ne_nil, h.ne_dot]
  have hslashes : name.takeWhile (fun c => decide (c = slash)) = [] := by
    obtain ⟨c, rest, rfl⟩ := List.exists_cons_of_ne_nil h.ne_nil
    have hc : c ≠ slash := fun e => h.noSlash (e ▸ List.mem_cons_self)
    exact List.takeWhile_cons_of_neg (by simpa using hc)
  simp [child, ofText, hsteps, hslashes]

theorem place_child (workplace : List Text) (p : DiskPath) {name : Text} (h : name.IsPlain) :
    (p.child name).placeFrom workplace = p.placeFrom workplace ++ [name] := by
  rw [child_of_isPlain p h]
  simp [placeFrom, stepFrom, h.ne_upwards]

end DiskPath

/-! ## 3. Folders in memory -/

namespace MemoryPath

/-- A text that ends with a slash. -/
def EndsInSlash (t : Text) : Prop := t.getLast? = some slash

/-- The beginning of settled paths, for a beginning of paths that ends with a slash. -/
def settledFront (t : Text) : Text :=
  let t := (Text.afterStart? start t).getD t
  if t.contains "::" || t.contains "://" then t else slash :: t.dropWhile isSlash

theorem isSlash_iff {c : CodePoint} : isSlash c = true ↔ c = slash := by
  simp [isSlash]

/-- What begins a path does not reach into a plain name behind it. -/
theorem afterStart?_start_append (t : Text) {name : Text} (h : name.IsPlain) :
    Text.afterStart? start (t ++ name) = (Text.afterStart? start t).map (· ++ name) := by
  cases ht : Text.afterStart? start t with
  | some rest =>
    obtain rfl := Text.afterStart?_eq_some_iff.mp ht
    exact Text.afterStart?_eq_some_iff.mpr (List.append_assoc start rest name)
  | none =>
    rw [Option.map_none, Text.afterStart?_eq_none_iff]
    rintro ⟨rest, heq⟩
    rcases List.append_eq_append_iff.mp heq with ⟨more, ht', -⟩ | ⟨more, hstart, hname⟩
    · exact Text.afterStart?_eq_none_iff.mp ht ⟨more, ht'.symm⟩
    · by_cases hmore : more = []
      · subst hmore
        rw [List.append_nil] at hstart
        exact Text.afterStart?_eq_none_iff.mp ht (hstart ▸ List.prefix_refl _)
      · -- the slash at the end of the beginning would stand in the name
        have hlast : more.getLast? = some slash := by
          rw [← List.getLast?_append_of_ne_nil t hmore, ← hstart]
          decide
        exact h.noSlash (hname ▸ List.mem_append_left rest (List.mem_of_getLast? hlast))

/-- A plain name holds nothing of a link. -/
theorem eq_nil_of_subset_isPlain {piece name : Text}
    (hpiece : ∀ c ∈ piece, c = slash ∨ c = CodePoint.ofChar ':') (h : name.IsPlain)
    (hsub : ∀ c ∈ piece, c ∈ name) : piece = [] := by
  refine List.eq_nil_iff_forall_not_mem.mpr fun c hc => ?_
  rcases hpiece c hc with rfl | rfl
  · exact h.noSlash (hsub _ hc)
  · exact h.noColon (hsub _ hc)

/-- A link does not reach into a plain name. -/
theorem contains_append {piece : Text} (hpiece : ∀ c ∈ piece, c = slash ∨ c = CodePoint.ofChar ':')
    (t : Text) {name : Text} (h : name.IsPlain) :
    (t ++ name).contains piece = t.contains piece := by
  rw [Bool.eq_iff_iff, Text.contains_iff, Text.contains_iff]
  constructor
  · rintro ⟨before, after, heq⟩
    rw [List.append_assoc] at heq
    -- the link stands in `t`, across its end, or in the name
    rcases List.append_eq_append_iff.mp heq with ⟨m, ht, hrest⟩ | ⟨m, -, hname⟩
    · rcases List.append_eq_append_iff.mp hrest with ⟨m', hm, -⟩ | ⟨m', hm, hname⟩
      · exact ⟨before, m', by rw [ht, hm, List.append_assoc]⟩
      · have hnil : m' = [] := eq_nil_of_subset_isPlain
          (fun c hc => hpiece c (hm ▸ List.mem_append_right m hc)) h
          (fun c hc => hname ▸ List.mem_append_left after hc)
        subst hnil
        rw [List.append_nil] at hm
        exact ⟨before, [], by rw [ht, hm, List.append_nil]⟩
    · have hnil : piece = [] := eq_nil_of_subset_isPlain hpiece h fun c hc => by
        rw [hname]
        simp [hc]
      exact hnil ▸ List.nil_infix
  · exact fun hp => hp.trans (List.prefix_append t name).isInfix

theorem trimEnd_append (t : Text) {name : Text} (h : name.IsPlain) :
    Text.trimEnd isSlash (t ++ name) = t ++ name := by
  have hlast : (t ++ name).reverse.dropWhile isSlash = (t ++ name).reverse := by
    rw [List.reverse_append]
    cases hname : name.reverse with
    | nil => exact absurd (List.reverse_eq_nil_iff.mp hname) h.ne_nil
    | cons c rest =>
      have hc : c ∈ name := List.mem_reverse.mp (hname ▸ List.mem_cons_self)
      exact List.dropWhile_cons_of_neg (by simp [h.not_isSlash hc])
  rw [Text.trimEnd, hlast, List.reverse_reverse]

theorem dropWhile_append (t : Text) {name : Text} (h : name.IsPlain) :
    (t ++ name).dropWhile isSlash = t.dropWhile isSlash ++ name := by
  have hname : name.dropWhile isSlash = name := by
    obtain ⟨c, rest, rfl⟩ := List.exists_cons_of_ne_nil h.ne_nil
    exact List.dropWhile_cons_of_neg (by simp [h.not_isSlash List.mem_cons_self])
  rw [List.dropWhile_append]
  cases ht : t.dropWhile isSlash with
  | nil => simp [hname]
  | cons c rest => simp

/-- **Settling a path that ends in a plain name settles what stands in front of it.** -/
theorem settled_append (t : Text) {name : Text} (h : name.IsPlain) :
    settled (t ++ name) = settledFront t ++ name := by
  have hstart : (Text.afterStart? start (t ++ name)).getD (t ++ name) =
      (Text.afterStart? start t).getD t ++ name := by
    rw [afterStart?_start_append t h]
    cases Text.afterStart? start t <;> rfl
  have hcolons : ∀ c ∈ ("::" : Text), c = slash ∨ c = CodePoint.ofChar ':' := by decide
  have hlink : ∀ c ∈ ("://" : Text), c = slash ∨ c = CodePoint.ofChar ':' := by decide
  unfold settled settledFront
  simp only [hstart, contains_append hcolons _ h, contains_append hlink _ h]
  split
  · exact trimEnd_append _ h
  · rw [dropWhile_append _ h, trimEnd_append _ h]
    cases hfront : ((Text.afterStart? start t).getD t).dropWhile isSlash ++ name with
    | nil => exact absurd (List.append_eq_nil_iff.mp hfront).2 h.ne_nil
    | cons c rest => simp [← hfront]

theorem endsInSlash_settledFront {t : Text} (h : EndsInSlash t) : EndsInSlash (settledFront t) := by
  have hrest : (Text.afterStart? start t).getD t = [] ∨
      EndsInSlash ((Text.afterStart? start t).getD t) := by
    cases ht : Text.afterStart? start t with
    | none => exact .inr h
    | some rest =>
      by_cases hnil : rest = []
      · exact .inl hnil
      · obtain rfl := Text.afterStart?_eq_some_iff.mp ht
        rw [EndsInSlash, List.getLast?_append_of_ne_nil _ hnil] at h
        exact .inr h
  -- only what is left behind the beginning matters from here on
  unfold settledFront
  simp only
  generalize (Text.afterStart? start t).getD t = u at hrest
  split
  · rename_i hlink
    rcases hrest with rfl | hu
    · exact absurd hlink (by decide)
    · exact hu
  · cases hdrop : u.dropWhile isSlash with
    | nil => rfl
    | cons c rest =>
      rcases hrest with rfl | hu
      · cases hdrop
      · have hsuffix : (c :: rest) <:+ u := hdrop ▸ List.dropWhile_suffix isSlash
        obtain ⟨before, rfl⟩ := hsuffix
        rw [EndsInSlash, List.getLast?_append_of_ne_nil _ (List.cons_ne_nil c rest)] at hu
        rw [EndsInSlash, ← hu]
        exact List.getLast?_append_of_ne_nil [slash] (List.cons_ne_nil c rest)

/-- A path as names are put below it. -/
def base (p : MemoryPath) : Text :=
  let base := if p.linked then p.path else settled p.path
  if base.isEmpty then "/" else base

/-- The path with the slash that stands in front of names below it. -/
def front (p : MemoryPath) : Text :=
  if p.base.getLast?.any isSlash then p.base else p.base ++ "/"

theorem endsInSlash_front (p : MemoryPath) : EndsInSlash p.front := by
  unfold front
  split
  · rename_i hlast
    cases h : p.base.getLast? with
    | none => simp [h] at hlast
    | some c =>
      rw [h, Option.any_some, isSlash_iff] at hlast
      rw [EndsInSlash, h, hlast]
  · exact List.getLast?_append_of_ne_nil p.base (List.cons_ne_nil _ [])

/-- What the places of all files below a path begin with. -/
def stem (p : MemoryPath) : Text :=
  if p.linked then settledFront p.front else settledFront (settledFront p.front)

theorem endsInSlash_stem (p : MemoryPath) : EndsInSlash p.stem := by
  unfold stem
  split
  · exact endsInSlash_settledFront (endsInSlash_front p)
  · exact endsInSlash_settledFront (endsInSlash_settledFront (endsInSlash_front p))

theorem spelledOut_of_isPlain {name : Text} (h : name.IsPlain) : spelledOut name = name := by
  have hstart : Text.afterStart? "memory:/" name = none := by
    rw [Text.afterStart?_eq_none_iff]
    rintro ⟨rest, rfl⟩
    exact h.noColon (List.mem_append_left rest (by decide))
  simp [spelledOut, hstart]

theorem place_child (p : MemoryPath) {name : Text} (h : name.IsPlain) :
    (p.child name).place = p.stem ++ name := by
  have hhead : name.head?.any isSlash = false := by
    obtain ⟨c, rest, rfl⟩ := List.exists_cons_of_ne_nil h.ne_nil
    simp [h.not_isSlash List.mem_cons_self]
  have hchild : p.child name =
      { p with path := if p.linked then p.front ++ name else settled (p.front ++ name) } := by
    have hbase : (if (if p.linked = true then p.path else settled p.path).isEmpty = true then
        Text.ofString "/" else if p.linked = true then p.path else settled p.path) = p.base := rfl
    simp only [child, spelledOut_of_isPlain h, hhead, front, hbase, Bool.false_eq_true, if_false]
    by_cases hlast : p.base.getLast?.any isSlash = true
    · simp only [hlast, if_true]
    · simp only [hlast, Bool.false_eq_true, if_false]
  rw [hchild, place, stem]
  cases p.linked with
  | true => exact settled_append p.front h
  | false =>
    simp only [Bool.false_eq_true, if_false]
    rw [settled_append _ h, settled_append _ h]

end MemoryPath

/-! ## 4. Folders and files -/

/-- Where a file is. -/
inductive Spot
  | disk (place : List Text)
  | memory (place : Text)
deriving DecidableEq

/-- A directory on the disk, or what the places of files in memory begin with. -/
inductive Folder
  | disk (place : List Text)
  | memory (stem : Text) (endsInSlash : MemoryPath.EndsInSlash stem)

/-- The file of a name in a folder. -/
def Folder.spot : Folder → Text → Spot
  | disk place, name => .disk (place ++ [name])
  | memory stem _, name => .memory (stem ++ name)

/-- What follows the last slash ends where that slash stands. -/
theorem append_slash_inj {before before' name name' : Text} (h : slash ∉ name) (h' : slash ∉ name')
    (heq : before ++ slash :: name = before' ++ slash :: name') : before = before' := by
  rcases List.append_eq_append_iff.mp heq with ⟨m, hbefore, hrest⟩ | ⟨m, hbefore, hrest⟩
  · cases m with
    | nil => rw [hbefore, List.append_nil]
    | cons c m =>
      rw [List.cons_append, List.cons.injEq] at hrest
      exact absurd (hrest.2 ▸ List.mem_append_right m List.mem_cons_self) h
  · cases m with
    | nil => rw [hbefore, List.append_nil]
    | cons c m =>
      rw [List.cons_append, List.cons.injEq] at hrest
      exact absurd (hrest.2 ▸ List.mem_append_right m List.mem_cons_self) h'

/-- **Different folders have no file in common.** -/
theorem Folder.spot_ne {F G : Folder} (h : F ≠ G) {name name' : Text} (hname : slash ∉ name)
    (hname' : slash ∉ name') : F.spot name ≠ G.spot name' := by
  intro heq
  cases F with
  | disk place =>
    cases G with
    | disk place' =>
      rw [spot, spot, Spot.disk.injEq] at heq
      exact h (congrArg Folder.disk (List.append_inj_left' heq rfl))
    | memory stem' hstem' => cases heq
  | memory stem hstem =>
    cases G with
    | disk place' => cases heq
    | memory stem' hstem' =>
      rw [spot, spot, Spot.memory.injEq] at heq
      -- both stems end at the last slash
      obtain ⟨before, rfl⟩ := List.getLast?_eq_some_iff.mp hstem
      obtain ⟨before', rfl⟩ := List.getLast?_eq_some_iff.mp hstem'
      rw [List.append_assoc, List.append_assoc] at heq
      obtain rfl := append_slash_inj hname hname' heq
      exact h rfl

theorem Folder.spot_inj {F : Folder} {name name' : Text} (h : F.spot name = F.spot name') :
    name = name' := by
  cases F with
  | disk place =>
    rw [spot, spot, Spot.disk.injEq] at h
    exact List.singleton_inj.mp (List.append_cancel_left h)
  | memory stem hstem =>
    rw [spot, spot, Spot.memory.injEq] at h
    exact List.append_cancel_left h

namespace Location

/-- The folder that a location denotes, for a place from which paths without a root start. -/
def folder (workplace : List Text) : Location → Folder
  | disk path => .disk (path.placeFrom workplace)
  | memory path => .memory path.stem path.endsInSlash_stem

/-- The file that a location denotes. -/
def spot (workplace : List Text) : Location → Spot
  | disk path => .disk (path.placeFrom workplace)
  | memory path => .memory path.place

/-- The paths of names below a location, as they are shown. -/
def pathsBelow (l : Location) (names : List Text) : List Text :=
  names.filterMap fun name => (l.child name).toOption.map text

theorem pathsBelow_append (l : Location) (names names' : List Text) :
    l.pathsBelow (names ++ names') = l.pathsBelow names ++ l.pathsBelow names' :=
  List.filterMap_append

theorem pathsBelow_singleton {l c : Location} {name : Text} (h : l.child name = .ok c) :
    l.pathsBelow [name] = [c.text] := by
  simp [pathsBelow, h, Except.toOption]

/-- **A plain name below a location denotes the file of that name in the location's folder.** -/
theorem exists_child (workplace : List Text) (l : Location) {name : Text} (h : name.IsPlain) :
    ∃ c, l.child name = .ok c ∧ c.spot workplace = (l.folder workplace).spot name := by
  have hstore : store? name = none := by
    rw [store?, Text.cutAt_of_not_mem h.noColon]
  cases l with
  | disk path =>
    refine ⟨disk (path.child name), by simp only [child, hstore], ?_⟩
    exact congrArg Spot.disk (DiskPath.place_child workplace path h)
  | memory path =>
    refine ⟨memory (path.child name), by simp only [child, hstore], ?_⟩
    exact congrArg Spot.memory (MemoryPath.place_child path h)

end Location

end IndexChain
