import IndexChain.Proofs.Session
import IndexChain.Rehearsal
import Mathlib.Data.List.Basic

/-!
# Histories — what happened before anything was recorded

Any two places can be watched: `Depots.watched` does what they do and writes down each operation
with its outcome, and `handing` writes down that a chunk was handed to the body of the loop. Nothing
else about the places is known, so what is shown here holds for every behaviour of theirs.

**What is recorded may not have been delivered.** A loop over chunks takes the fault `exhausted` for
the end of the chunks, and places may fail with it like with any other. Then the loop ends as if all
had been handed over, and the session goes on to record the update. What is shown is exact about
this: up to the moment at which the manifest is stored the chunks were opened and handed over in the
order of the plan, and **they were all of them if and only if no failure looked like the end**.
-/

namespace IndexChain

variable {σ α : Type}

/-! ## 1. Acts -/

/-- What was done to the places, with its outcome, or that a chunk was handed over. -/
inductive Act
  | fetched (side : Side) (name : Text) (outcome : Except Fault StreamId)
  | read (stream : StreamId) (outcome : Except Fault Bytes)
  | shut (stream : StreamId) (outcome : Except Fault Unit)
  | stored (name : Text) (content : Bytes) (outcome : Except Fault Unit)
  | released (side : Side) (outcome : Except Fault Unit)
  | handed (chunk : Chunk)

/-- What an act means for the chunks of a plan. -/
inductive Act.Role
  /-- A resource of the remote place was opened, or a chunk was handed over. -/
  | delivering
  /-- Something was to be stored. -/
  | storing
  /-- A failure that a loop over chunks takes for their end. -/
  | falseEnd
  | other
deriving DecidableEq

/-- The role of an act. -/
def Act.role : Act → Act.Role
  | fetched .remote _ (.ok _) | handed _ => .delivering
  | stored .. => .storing
  | fetched _ _ (.error .exhausted) | shut _ (.error .exhausted) => .falseEnd
  | _ => .other

/-- The acts by which chunks are opened and handed over, in order. -/
def Act.deliveries (acts : List Act) : List Act := acts.filter fun act => act.role = .delivering

/-- The chunk that was handed over. -/
def Act.handed? : Act → Option Chunk
  | handed chunk => some chunk
  | _ => none

/-- The name under which something was to be stored. -/
def Act.storedName? : Act → Option Text
  | stored name _ _ => some name
  | _ => none

/-- A chunk is opened and then handed over. -/
def Chunk.delivery (chunk : Chunk) : List Act :=
  [.fetched .remote chunk.name (.ok chunk.stream), .handed chunk]

/-- A step, with an act written down for its outcome. -/
def Run.watched (act : Except Fault α → Act) (step : Run σ α) : Run (σ × List Act) α :=
  fun (w, acts) => ((step w).1, (step w).2, acts ++ [act (step w).1])

/-- The places, with all that is done to them written down. -/
def Depots.watched (D : Depots σ) : Depots (σ × List Act) where
  fetch side name := (D.fetch side name).watched (.fetched side name)
  read i size := (D.read i size).watched (.read i)
  shut i := (D.shut i).watched (.shut i)
  isShut i := fun (w, _) => D.isShut i w
  store name content := (D.store name content).watched (.stored name content)
  release side := (D.release side).watched (.released side)
  note r := fun (w, acts) => (D.note r w, acts)

/-- The body of a loop over chunks, with each chunk it is given written down. -/
def handing (body : Nat → Chunk → Run σ α) (k : Nat) (chunk : Chunk) : Run (σ × List Act) α :=
  (body k chunk).watched fun _ => .handed chunk

/-- A session from its opening to its end: all its chunks are handed to a body, and how that went
    decides how the session ends. -/
def Session.throughout (D : Depots σ) (hasCopy : Bool) (comment : Option Text) (now : Moment)
    (body : Nat → Chunk → Run σ α) : Run σ (List α) := fun w =>
  match establish D hasCopy comment w with
  | (.error fault, w) => (.error fault, w)
  | (.ok s, w) =>
    let (outcome, _, w) :=
      during D now (consumeAll D fun k chunk => onDepots (body k chunk)) (s, w)
    (outcome, w)

/-! ## 2. Additions to a history -/

/-- Only acts of one kind were added to the history. -/
def Adds (P : Act → Prop) (x y : σ × List Act) : Prop :=
  ∃ added, y.2 = x.2 ++ added ∧ ∀ act ∈ added, P act

theorem Adds.refl {P : Act → Prop} (x : σ × List Act) : Adds P x x :=
  ⟨[], (List.append_nil _).symm, by simp⟩

theorem Adds.trans {P : Act → Prop} {x y z : σ × List Act} (hxy : Adds P x y) (hyz : Adds P y z) :
    Adds P x z := by
  obtain ⟨l, hl, hPl⟩ := hxy
  obtain ⟨m, hm, hPm⟩ := hyz
  refine ⟨l ++ m, by rw [hm, hl, List.append_assoc], ?_⟩
  intro act hact
  rcases List.mem_append.mp hact with h | h
  · exact hPl act h
  · exact hPm act h

theorem Adds.mono {P Q : Act → Prop} {x y : σ × List Act} (hPQ : ∀ act, P act → Q act)
    (h : Adds P x y) : Adds Q x y := by
  obtain ⟨added, heq, hP⟩ := h
  exact ⟨added, heq, fun act hact => hPQ act (hP act hact)⟩

theorem Adds.of_watched {P : Act → Prop} {act : Except Fault α → Act} {step : Run σ α}
    {x y : σ × List Act} {outcome : Except Fault α} (h : step.watched act x = (outcome, y))
    (hP : P (act outcome)) : Adds P x y := by
  cases h
  exact ⟨_, rfl, by simpa using hP⟩

theorem Run.acts_of_watched {act : Except Fault α → Act} {step : Run σ α} {x y : σ × List Act}
    {outcome : Except Fault α} (h : step.watched act x = (outcome, y)) :
    y.2 = x.2 ++ [act outcome] := by
  cases h
  rfl

theorem Run.watched_of_eq {act : Except Fault α → Act} {step : Run σ α} {w w' : σ}
    {outcome : Except Fault α} (h : step w = (outcome, w')) (acts : List Act) :
    step.watched act (w, acts) = (outcome, w', acts ++ [act outcome]) := by
  simp only [Run.watched, h]

/-- Whether an act has no role. -/
def Act.IsOther (act : Act) : Prop := act.role = .other

/-- Whether an act stores nothing. -/
def Act.StoresNothing (act : Act) : Prop := act.role ≠ .storing

theorem Act.IsOther.storesNothing (act : Act) (h : act.IsOther) : act.StoresNothing := by
  unfold Act.StoresNothing
  rw [h]
  decide

/-- What is kept of the places is kept when they are watched. -/
theorem Depots.StayWithin.watched {D : Depots σ} {R : σ → σ → Prop} (hD : D.StayWithin R) :
    D.watched.StayWithin fun x y => R x.1 y.1 where
  refl x := hD.refl x.1
  trans _ _ _ := hD.trans _ _ _
  fetch side name x := hD.fetch side name x.1
  read i size x := hD.read i size x.1
  shut i x := hD.shut i x.1
  note event fields x hpart := hD.note event fields x.1 hpart

theorem stayWithin_adds {P : Act → Prop} (D : Depots σ)
    (hfetched : ∀ side name outcome, P (.fetched side name outcome))
    (hread : ∀ i outcome, P (.read i outcome)) (hshut : ∀ i outcome, P (.shut i outcome)) :
    D.watched.StayWithin (Adds P) where
  refl := Adds.refl
  trans _ _ _ := Adds.trans
  fetch _ _ _ := Adds.of_watched rfl (hfetched _ _ _)
  read _ _ _ := Adds.of_watched rfl (hread _ _)
  shut _ _ := Adds.of_watched rfl (hshut _ _)
  note _ _ _ _ := Adds.refl _

theorem endsWithin_adds {P : Act → Prop} (D : Depots σ)
    (hstored : ∀ name content outcome, P (.stored name content outcome))
    (hreleased : ∀ side outcome, P (.released side outcome)) : D.watched.EndsWithin (Adds P) where
  refl := Adds.refl
  trans _ _ _ := Adds.trans
  store _ _ _ := Adds.of_watched rfl (hstored _ _ _)
  release _ _ := Adds.of_watched rfl (hreleased _ _)
  note _ _ _ _ := Adds.refl _

theorem stayWithin_storesNothing (D : Depots σ) :
    D.watched.StayWithin (Adds Act.StoresNothing) := by
  refine stayWithin_adds D (fun side name outcome => ?_) (fun _ _ => ?_) (fun _ outcome => ?_)
  all_goals
    unfold Act.StoresNothing Act.role
    split <;> simp_all

theorem release_storesNothing (D : Depots σ) (hasCopy : Bool) :
    Run.Within (Adds Act.StoresNothing) (Session.release D.watched hasCopy) :=
  Session.release_within Adds.refl (fun _ _ _ => Adds.trans)
    (fun _ _ => Adds.of_watched rfl (by simp [Act.StoresNothing, Act.role])) hasCopy

/-- Nothing was stored before, and nothing was added that stores. -/
theorem Adds.storesNothing {x y : σ × List Act} (h : Adds Act.StoresNothing x y)
    (hx : ∀ act ∈ x.2, act.StoresNothing) : ∀ act ∈ y.2, act.StoresNothing := by
  obtain ⟨added, heq, hadded⟩ := h
  rw [heq]
  intro act hact
  rcases List.mem_append.mp hact with h | h
  · exact hx act h
  · exact hadded act h

theorem deliveries_append_of_not {acts : List Act} {act : Act} (h : act.role ≠ .delivering) :
    Act.deliveries (acts ++ [act]) = Act.deliveries acts := by
  simp [Act.deliveries, h]

theorem deliveries_append_of {acts : List Act} {act : Act} (h : act.role = .delivering) :
    Act.deliveries (acts ++ [act]) = Act.deliveries acts ++ [act] := by
  simp [Act.deliveries, h]

theorem deliveries_of_adds {x y : σ × List Act} (h : Adds Act.IsOther x y) :
    Act.deliveries y.2 = Act.deliveries x.2 := by
  obtain ⟨added, heq, hother⟩ := h
  have hnone : Act.deliveries added = [] := by
    refine List.filter_eq_nil_iff.mpr fun act hact => ?_
    simp [show act.role = .other from hother act hact]
  unfold Act.deliveries at hnone ⊢
  rw [heq, List.filter_append, hnone, List.append_nil]

/-! ## 3. Chunks that were handed over -/

/-- Up to here the chunks were opened and handed over in the order of a plan, and all of them unless
    a failure looked like their end. -/
def Delivered (opening : Act) (names : List Text) (acts : List Act) : Prop :=
  ∃ chunks : List Chunk,
    Act.deliveries acts = opening :: chunks.flatMap Chunk.delivery ∧
    chunks.map Chunk.name <+: names ∧
    (chunks.map Chunk.name = names ↔ ∀ act ∈ acts, act.role ≠ .falseEnd)

theorem Delivered.of_adds {opening : Act} {names : List Text} {x y : σ × List Act}
    (h : Delivered opening names x.2) (hadds : Adds Act.IsOther x y) :
    Delivered opening names y.2 := by
  obtain ⟨chunks, hdeliveries, hprefix, hall⟩ := h
  refine ⟨chunks, by rw [deliveries_of_adds hadds, hdeliveries], hprefix, hall.trans ?_⟩
  obtain ⟨added, heq, hother⟩ := hadds
  rw [heq]
  constructor
  · intro h act hact
    rcases List.mem_append.mp hact with hx | hadded
    · exact h act hx
    · rw [show act.role = .other from hother act hadded]
      decide
  · exact fun h act hact => h act (List.mem_append_left _ hact)

/-- Before a chunk is asked for: those handed over so far and those pending are the plan, and
    nothing was stored or looked like the end. -/
structure Underway (opening : Act) (names : List Text) (d : Delivery) (acts : List Act) : Prop where
  notFailed : d.stage ≠ .failed
  handed : ∃ chunks : List Chunk,
    Act.deliveries acts = opening :: chunks.flatMap Chunk.delivery ∧
    chunks.map Chunk.name ++ d.pending = names
  calm : ∀ act ∈ acts, act.role = .delivering ∨ act.role = .other

/-- The act by which the live chunk of a delivery is closed, if there is one. -/
def Delivery.shutting (d : Delivery) : List Act :=
  match d.current with
  | none => []
  | some chunk => [.shut chunk.stream (.ok ())]

theorem shutCurrent_ok_watched {D : Depots σ} {d : Delivery} {x y : σ × List Act}
    (h : d.shutCurrent D.watched x = (.ok (), y)) : y.2 = x.2 ++ d.shutting := by
  unfold Delivery.shutCurrent at h
  unfold Delivery.shutting
  cases hcurrent : d.current with
  | none =>
    rw [hcurrent] at h
    cases h
    exact (List.append_nil _).symm
  | some chunk =>
    simp only [hcurrent, Depots.watched, Run.watched, Prod.mk.injEq] at h
    rw [← h.2, h.1]

theorem Delivery.eq_of_mem_shutting {d : Delivery} {act : Act} (h : act ∈ d.shutting) :
    ∃ i, act = .shut i (.ok ()) := by
  unfold Delivery.shutting at h
  cases hcurrent : d.current with
  | none => simp [hcurrent] at h
  | some chunk =>
    rw [hcurrent] at h
    exact ⟨chunk.stream, List.mem_singleton.mp h⟩

theorem Delivery.isOther_of_mem_shutting {d : Delivery} {act : Act} (h : act ∈ d.shutting) :
    act.IsOther := by
  obtain ⟨i, rfl⟩ := Delivery.eq_of_mem_shutting h
  rfl

theorem shutCurrent_ok_adds {D : Depots σ} {d : Delivery} {x y : σ × List Act}
    (h : d.shutCurrent D.watched x = (.ok (), y)) : Adds Act.IsOther x y :=
  ⟨d.shutting, shutCurrent_ok_watched h, fun _ => Delivery.isOther_of_mem_shutting⟩

theorem shutCurrent_error_watched {D : Depots σ} {d : Delivery} {x y : σ × List Act} {fault : Fault}
    (h : d.shutCurrent D.watched x = (.error fault, y)) :
    ∃ chunk, d.current = some chunk ∧ y.2 = x.2 ++ [.shut chunk.stream (.error fault)] := by
  unfold Delivery.shutCurrent at h
  cases hcurrent : d.current with
  | none =>
    rw [hcurrent] at h
    cases h
  | some chunk =>
    rw [hcurrent] at h
    exact ⟨chunk, rfl, Run.acts_of_watched h⟩

theorem noteFailure_watched (D : Depots σ) (name : Text) (fault : Fault) (x : σ × List Act) :
    (Delivery.noteFailure D.watched name fault x).2 = x.2 := by
  unfold Delivery.noteFailure
  split <;> rfl

namespace Underway

variable {D : Depots σ} {opening : Act} {names : List Text} {d d' : Delivery} {x y z : σ × List Act}

theorem of_adds (h : Underway opening names d x.2) (hadds : Adds Act.IsOther x y) :
    Underway opening names d y.2 := by
  obtain ⟨hfailed, ⟨chunks, hdeliveries, hnames⟩, hcalm⟩ := h
  refine ⟨hfailed, ⟨chunks, ?_, hnames⟩, ?_⟩
  · rw [deliveries_of_adds hadds, hdeliveries]
  · obtain ⟨added, heq, hother⟩ := hadds
    rw [heq]
    intro act hact
    rcases List.mem_append.mp hact with hx | hadded
    · exact hcalm act hx
    · exact .inr (hother act hadded)

theorem storesNothing (h : Underway opening names d x.2) : ∀ act ∈ x.2, act.StoresNothing := by
  intro act hact
  unfold Act.StoresNothing
  rcases h.calm act hact with hrole | hrole <;> rw [hrole] <;> decide

theorem noFalseEnd (h : Underway opening names d x.2) : ∀ act ∈ x.2, act.role ≠ .falseEnd := by
  intro act hact
  rcases h.calm act hact with hrole | hrole <;> rw [hrole] <;> decide

/-- Nothing is pending any more. -/
theorem delivered_of_nil (h : Underway opening names d x.2) (hpending : d.pending = []) :
    Delivered opening names x.2 := by
  obtain ⟨chunks, hdeliveries, hnames⟩ := h.handed
  rw [hpending, List.append_nil] at hnames
  exact ⟨chunks, hdeliveries, hnames ▸ List.prefix_refl _, ⟨fun _ => h.noFalseEnd, fun _ => hnames⟩⟩

/-- A failure looked like the end while there was more to come. -/
theorem delivered_of_falseEnd (h : Underway opening names d x.2) (hpending : d.pending ≠ [])
    {act : Act} (hact : act.role = .falseEnd) : Delivered opening names (x.2 ++ [act]) := by
  obtain ⟨chunks, hdeliveries, hnames⟩ := h.handed
  refine ⟨chunks, ?_, ⟨d.pending, hnames⟩, ?_⟩
  · rw [deliveries_append_of_not (by simp [hact]), hdeliveries]
  · constructor
    · intro hall
      rw [← hnames] at hall
      exact absurd (List.append_right_eq_self.mp hall.symm) hpending
    · intro hends
      exact absurd hact (hends act (List.mem_append_right _ (List.mem_singleton.mpr rfl)))

theorem next_exhausted (h : Underway opening names d x.2)
    (hnext : Delivery.next D.watched (d, x) = (.error .exhausted, d', y)) :
    Delivered opening names y.2 := by
  have hcases := Delivery.next_next D.watched d x
  rw [hnext] at hcases
  generalize hfault : (Except.error Fault.exhausted : Except Fault Chunk) = o at hcases
  cases hcases with
  | drained hdrained =>
    rcases hdrained with hfailed | hpending
    · exact absurd hfailed h.notFailed
    · exact h.delivered_of_nil hpending
  | @unshut name _ _ x' _ hpending hshut =>
    obtain rfl := Delivery.eq_exhausted_of_switchFault (Except.error.inj hfault).symm
    obtain ⟨chunk, -, heq⟩ := shutCurrent_error_watched hshut
    show Delivered opening names (Delivery.noteFailure D.watched name .exhausted x').2
    rw [noteFailure_watched, heq]
    -- the chunk that was live could not be closed, and the failure looked like the end
    exact h.delivered_of_falseEnd (by simp [hpending]) rfl
  | @unfetched name _ _ _ x' _ hpending hshut hfetch =>
    obtain rfl := Delivery.eq_exhausted_of_switchFault (Except.error.inj hfault).symm
    show Delivered opening names (Delivery.noteFailure D.watched name .exhausted x').2
    rw [noteFailure_watched]
    simp only [Depots.watched, Run.watched, Prod.mk.injEq] at hfetch
    rw [← hfetch.2, hfetch.1]
    -- the same of the chunk that was to be opened
    exact (h.of_adds (shutCurrent_ok_adds hshut)).delivered_of_falseEnd (by simp [hpending]) rfl
  | handed => cases hfault

theorem next_handed {k : Nat} {chunk : Chunk} {body : Nat → Chunk → Run σ α} {o : Except Fault α}
    (h : Underway opening names d x.2)
    (hnext : Delivery.next D.watched (d, x) = (.ok chunk, d', y))
    (hbody : handing body k chunk y = (o, z)) : Underway opening names d' z.2 := by
  have hcases := Delivery.next_next D.watched d x
  rw [hnext] at hcases
  cases hcases with
  | @handed name rest stream x₁ x₂ _ hpending hshut hfetch =>
    obtain ⟨-, ⟨chunks, hdeliveries, hnames⟩, hcalm⟩ := h.of_adds (shutCurrent_ok_adds hshut)
    simp only [Depots.watched, Run.watched, Prod.mk.injEq] at hfetch
    have hz : z.2 =
        x₁.2 ++ ([.fetched .remote name (.ok stream), .handed ⟨name, stream⟩] : List Act) := by
      simp only [handing, Run.watched, Prod.mk.injEq] at hbody
      rw [← hbody.2, ← hfetch.2]
      simp [hfetch.1]
    refine ⟨?_, ⟨chunks ++ [⟨name, stream⟩], ?_, ?_⟩, ?_⟩
    · simp only
      split <;> simp
    · rw [hz, List.append_cons, deliveries_append_of rfl, deliveries_append_of rfl, hdeliveries]
      simp [Chunk.delivery]
    · rw [← hnames, hpending]
      simp
    · rw [hz]
      intro act hact
      rcases List.mem_append.mp hact with hact | hact
      · exact hcalm act hact
      · simp only [List.mem_cons, List.not_mem_nil, or_false] at hact
        rcases hact with rfl | rfl <;> exact .inl rfl

end Underway

/-! ## 4. Opening -/

section Opening

variable {D : Depots σ} {x y : σ × List Act}

theorem loadManifest_ok_adds {stream : StreamId} {m : Manifest}
    (h : Session.loadManifest D.watched stream x = (.ok m, y)) : Adds Act.IsOther x y := by
  obtain ⟨content, hread, -⟩ := Session.loadManifest_eq_ok_iff.mp h
  obtain ⟨z, hread, hshut⟩ := Run.ensure_eq_ok_iff.mp hread
  have hadds : Adds Act.IsOther x z := .of_watched hread rfl
  exact hadds.trans (.of_watched hshut rfl)

theorem copyLoaded_adds {copy : Option Manifest} (h : Session.CopyLoaded D.watched x copy y) :
    Adds Act.IsOther x y := by
  cases h with
  | @missing fault z hfetch hmissing =>
    have hfetched : Adds Act.IsOther x z := by
      refine Adds.of_watched hfetch ?_
      -- a missing resource is a failure, and not one that looks like the end of the chunks
      cases fault <;> first | rfl | simp [Fault.isNotFound] at hmissing
    exact hfetched.trans (Adds.refl _)
  | @present _ _ z _ hfetch hload =>
    have hfetched : Adds Act.IsOther x z := .of_watched hfetch rfl
    exact hfetched.trans (loadManifest_ok_adds hload)

/-- Opening a session opened the remote manifest, and did nothing else of note. -/
theorem underway_of_established {hasCopy : Bool} {comment : Option Text} {w : σ} {s : Session}
    (h : Session.Established D.watched hasCopy comment (w, []) s y) :
    ∃ stream, Underway (.fetched .remote Manifest.resourceName (.ok stream)) s.plan.chunkNames
      (.ofNames s.plan.chunkNames) y.2 := by
  obtain ⟨stream, x₁, x₂, x₃, hfetch, hload, hcopy, rfl⟩ := h.reads
  have hopened : Underway (.fetched .remote Manifest.resourceName (.ok stream)) s.plan.chunkNames
      (.ofNames s.plan.chunkNames) x₁.2 := by
    simp only [Depots.watched, Run.watched, Prod.mk.injEq] at hfetch
    rw [← hfetch.2, hfetch.1]
    refine ⟨?_, ⟨[], rfl, rfl⟩, ?_⟩
    · unfold Delivery.ofNames
      simp only
      split <;> simp
    · intro act hact
      obtain rfl := List.mem_singleton.mp hact
      exact .inl rfl
  have hcopied : Adds Act.IsOther x₂ x₃ := by
    cases hasCopy
    · simp only [Bool.false_eq_true, if_false, Run.pure_apply, Prod.mk.injEq] at hcopy
      rw [hcopy.2]
      exact Adds.refl _
    · exact copyLoaded_adds (Session.loadCopy_eq_ok_iff.mp hcopy)
  exact ⟨stream, hopened.of_adds ((loadManifest_ok_adds hload).trans (hcopied.trans (Adds.refl _)))⟩

end Opening

/-! ## 5. Recording -/

section Recording

variable {D : Depots σ} {x y : σ × List Act}

theorem ne_of_adds_storesNothing {before after : List Act} {name : Text} {content : Bytes}
    {outcome : Except Fault Unit} (hx : ∀ act ∈ x.2, act.StoresNothing)
    (h : Adds Act.StoresNothing x y) : y.2 ≠ before ++ .stored name content outcome :: after := by
  intro heq
  have hstored : (Act.stored name content outcome).StoresNothing :=
    h.storesNothing hx _ (by rw [heq]; simp)
  exact hstored rfl

theorem record_watched (published : Manifest) (comment : Option Text) (now : Moment) :
    (∃ content outcome, published.entries.toBytes? comment now = some content ∧
      (Handover.record D.watched published comment now x).2.2 =
        x.2 ++ [.stored Manifest.resourceName content outcome]) ∨
    (Handover.record D.watched published comment now x).2.2 = x.2 := by
  unfold Handover.record
  cases published.entries.toBytes? comment now with
  | none => exact .inr rfl
  | some content =>
    refine .inl ⟨content, (D.store Manifest.resourceName content x.1).1, rfl, ?_⟩
    rcases h : D.watched.store Manifest.resourceName content x with ⟨fault | ⟨⟩, y⟩
    · simp only [Run.bind_of_error h]
      simp only [Depots.watched, Run.watched, Prod.mk.injEq] at h
      rw [← h.2]
    · simp only [Run.bind_of_ok h]
      simp only [Depots.watched, Run.watched, Prod.mk.injEq] at h
      rw [← h.2]
      rfl

theorem release_adds (D : Depots σ) (side : Side) (x : σ × List Act) :
    Adds Act.StoresNothing x (D.watched.release side x).2 :=
  Adds.of_watched rfl (by simp [Act.StoresNothing, Act.role])

/-- At the end of a session nothing is stored, or the manifest is: after the live chunk was closed
    and the remote place released, and before the copy is released. -/
theorem recordPass_watched (now : Moment) (s : Session) (d : Delivery) (x : σ × List Act) :
    Adds Act.StoresNothing x (Session.recordPass D.watched now s d x).2 ∨
    ∃ content outcome released, s.published.entries.toBytes? s.comment now = some content ∧
      (Session.recordPass D.watched now s d x).2.2 =
        (x.2 ++ d.shutting ++ [.released .remote (.ok ())]) ++
          .stored Manifest.resourceName content outcome :: [.released .copy released] := by
  unfold Session.recordPass
  rcases hshut : d.shutCurrent D.watched x with ⟨fault | ⟨⟩, x₁⟩
  all_goals
    have hwithin := (Delivery.shutCurrent_within (stayWithin_storesNothing D) d).of_eq hshut
  · -- the live chunk could not be closed
    refine .inl (hwithin.trans ?_)
    simp only
    split
    · exact Run.Within.bind (R := Adds Act.StoresNothing) (fun _ _ _ => Adds.trans)
        (release_storesNothing D s.hasCopy) (fun _ x => Adds.refl x) x₁
    · exact Adds.refl _
  simp only [Handover.finalize]
  by_cases hcopy : s.hasCopy = true
  · simp only [hcopy, if_true, Run.ensure_snd]
    rcases hrelease : D.watched.release .remote x₁ with ⟨fault | ⟨⟩, x₂⟩
    · -- nor could the remote place be released
      rw [Run.bind_of_error hrelease]
      have hreleased := release_adds D .remote x₁
      rw [hrelease] at hreleased
      exact .inl (hwithin.trans (hreleased.trans (release_adds D .copy _)))
    · rw [Run.bind_of_ok hrelease]
      have hx₂ : x₂.2 = x.2 ++ d.shutting ++ [.released .remote (.ok ())] := by
        simp only [Depots.watched, Run.watched, Prod.mk.injEq] at hrelease
        rw [← hrelease.2, hrelease.1, shutCurrent_ok_watched hshut]
      rcases record_watched (D := D) (x := x₂) s.published s.comment now with
        ⟨content, outcome, hbytes, hrecord⟩ | hrecord
      · refine .inr ⟨content, outcome, (D.release .copy
          (Handover.record D.watched s.published s.comment now x₂).2.1).1, hbytes, ?_⟩
        rw [← hx₂, List.append_cons, ← hrecord]
        rfl
      · -- the manifest has no bytes
        have hrecorded : Adds Act.StoresNothing x₂
            (Handover.record D.watched s.published s.comment now x₂).2 :=
          ⟨[], by rw [hrecord, List.append_nil], by simp⟩
        have hreleased := release_adds D .remote x₁
        rw [hrelease] at hreleased
        exact .inl (hwithin.trans (hreleased.trans (hrecorded.trans (release_adds D .copy _))))
  · simp only [hcopy]
    exact .inl (hwithin.trans (release_adds D .remote x₁))

/-- What stands around the act that stores something at the end of a session. -/
theorem eq_of_recordPass {now : Moment} {s : Session} {d : Delivery} {before after : List Act}
    {name : Text} {content : Bytes} {outcome : Except Fault Unit}
    (hx : ∀ act ∈ x.2, act.StoresNothing)
    (h : (Session.recordPass D.watched now s d x).2.2 =
      before ++ .stored name content outcome :: after) :
    name = Manifest.resourceName ∧ s.published.entries.toBytes? s.comment now = some content ∧
      before = x.2 ++ d.shutting ++ [.released .remote (.ok ())] ∧
      ∃ released, after = [.released .copy released] := by
  rcases recordPass_watched (D := D) now s d x with
    hnothing | ⟨content', outcome', released, hbytes, hacts⟩
  · exact absurd h (ne_of_adds_storesNothing hx hnothing)
  -- nothing was stored before or after, so there is one act only that it can be
  rw [hacts, List.append_cons_inj_of_notMem ?_ (by simp)] at h
  · obtain ⟨hbefore, hact, hafter⟩ := h
    cases hact
    exact ⟨rfl, hbytes, hbefore.symm, released, hafter.symm⟩
  · intro hmem
    simp only [List.mem_append, List.mem_singleton, reduceCtorEq, or_false] at hmem
    rcases hmem with hmem | hmem
    · exact hx _ hmem rfl
    · exact (Delivery.isOther_of_mem_shutting hmem).storesNothing _ rfl

/-- Before the manifest is stored at the end of a session nothing of note happens. -/
theorem adds_of_recordPass {now : Moment} {s : Session} {d : Delivery} {before after : List Act}
    {name : Text} {content : Bytes} {outcome : Except Fault Unit}
    (hx : ∀ act ∈ x.2, act.StoresNothing)
    (h : (Session.recordPass D.watched now s d x).2.2 =
      before ++ .stored name content outcome :: after) :
    name = Manifest.resourceName ∧ s.published.entries.toBytes? s.comment now = some content ∧
      ∃ z, Adds Act.IsOther x z ∧ z.2 = before := by
  obtain ⟨hname, hbytes, hbefore, -⟩ := eq_of_recordPass hx h
  refine ⟨hname, hbytes, (x.1, before),
    ⟨d.shutting ++ [.released .remote (.ok ())], by rw [hbefore, List.append_assoc], ?_⟩, rfl⟩
  intro act hact
  rcases List.mem_append.mp hact with hact | hact
  · exact Delivery.isOther_of_mem_shutting hact
  · obtain rfl := List.mem_singleton.mp hact
    rfl

end Recording

/-! ## 6. Whole sessions -/

/-- **What was delivered before the manifest is stored.** The chunks were opened and handed over in
    the order of the plan, each right after the other, and they were all of them if and only if no
    failure to open a resource or to close a stream looked like the end of the chunks. -/
theorem delivered_of_stored {D : Depots σ} {hasCopy : Bool} {comment : Option Text} {now : Moment}
    {body : Nat → Chunk → Run σ α} {w : σ} {before after : List Act} {name : Text} {content : Bytes}
    {outcome : Except Fault Unit}
    (h : (Session.throughout D.watched hasCopy comment now (handing body) (w, [])).2.2 =
      before ++ .stored name content outcome :: after) :
    ∃ s y stream, Session.establish D.watched hasCopy comment (w, []) = (.ok s, y) ∧
      name = Manifest.resourceName ∧ s.published.entries.toBytes? comment now = some content ∧
      ∃ chunks : List Chunk,
        Act.deliveries before =
          .fetched .remote Manifest.resourceName (.ok stream) :: chunks.flatMap Chunk.delivery ∧
        chunks.map Chunk.name <+: s.plan.chunkNames ∧
        (chunks.map Chunk.name = s.plan.chunkNames ↔ ∀ act ∈ before, act.role ≠ .falseEnd) := by
  unfold Session.throughout at h
  rcases hestablish : Session.establish D.watched hasCopy comment (w, []) with ⟨fault | s, y⟩
  · -- there is no session
    rw [hestablish] at h
    exact absurd h (ne_of_adds_storesNothing (by simp)
      ((Session.establish_within (stayWithin_storesNothing D) hasCopy comment).of_eq hestablish))
  rw [hestablish] at h
  have hestablished := Session.establish_eq_ok_iff.mp hestablish
  obtain ⟨stream, hunderway⟩ := underway_of_established hestablished
  let opening : Act := .fetched .remote Manifest.resourceName (.ok stream)
  have hnext := Delivery.next_within (stayWithin_storesNothing D)
  have hrule := Session.consumeAll_rule (handing body) (D := D.watched)
    (I := fun d x => Underway opening s.plan.chunkNames d x.2)
    (Q := fun o _ x => (∀ act ∈ x.2, act.StoresNothing) ∧
      ∀ out, o = .ok out → Delivered opening s.plan.chunkNames x.2)
    hestablished.isFresh ?hend ?hfail ?hbody
    (fun _ _ _ _ _ _ _ _ hI h hbody => hI.next_handed h hbody) hunderway
  case hend =>
    intro d x d' x' out hI hnext'
    have hwithin : Adds Act.StoresNothing x x' := hnext.of_eq hnext'
    exact ⟨hwithin.storesNothing hI.storesNothing, fun _ _ => hI.next_exhausted hnext'⟩
  case hfail =>
    intro d x d' x' fault hI hnext' _
    have hwithin : Adds Act.StoresNothing x x' := hnext.of_eq hnext'
    exact ⟨hwithin.storesNothing hI.storesNothing, fun _ h => nomatch h⟩
  case hbody =>
    intro d x d' x' x'' k chunk fault hI hnext' hbody
    exact ⟨(hI.next_handed hnext' hbody).storesNothing, fun _ h => nomatch h⟩
  obtain ⟨o, d, z, hconsume, hstores, hdelivered⟩ := hrule
  rcases o with fault | out
  · -- the session was closed
    obtain ⟨s', hclose⟩ := Session.close_passing (D := D.watched) hestablished.isFresh d z
    simp only [Session.during_snd_of_error hconsume, hclose, Run.ensure_snd] at h
    exact absurd h (ne_of_adds_storesNothing hstores
      ((Delivery.shutCurrent_within (stayWithin_storesNothing D) d z).trans
        (release_storesNothing D s.hasCopy _)))
  · -- the session was finished
    obtain ⟨s', hfinish⟩ := Session.finish_passing (D := D.watched) hestablished.isFresh d now z
    simp only [Session.during_snd_of_ok hconsume, hfinish] at h
    obtain ⟨hname, hbytes, z', hadds, hbefore⟩ := adds_of_recordPass hstores h
    rw [hestablished.comment_eq] at hbytes
    rw [← hbefore]
    exact ⟨s, y, stream, rfl, hname, hbytes, (hdelivered out rfl).of_adds hadds⟩

/-! ### Two rehearsals

An index with an id, a time of publication and nothing else is published, so the whole index is
planned. All chunks are read to their end. -/

/-- A published index, of which the resources named may not be opened. -/
def Rehearsal.offering (failOpen : List (Text × ScriptedFault)) : Rehearsal where
  remote := {
    resources := [
      (Manifest.resourceName,
        (Text.toLatin1?
          "nexus.index.id=central\nnexus.index.timestamp=20240115103000.123 +0000").getD []),
      (Plan.fullChunkName, [1, 2, 3])]
    failOpen }

/-- All that happened in a session that reads every chunk to its end. -/
def readThrough (r : Rehearsal) : List Act :=
  (Session.throughout Rehearsal.depots.watched true (some Handover.defaultComment) .earliest
    (handing fun _ chunk => chunk.read Rehearsal.depots none) (r, [])).2.2

theorem Act.exists_of_role_storing {act : Act} (h : act.role = .storing) :
    ∃ name content outcome, act = .stored name content outcome := by
  unfold Act.role at h
  split at h
  case h_3 name content outcome => exact ⟨name, content, outcome, rfl⟩
  all_goals cases h

/-- A session in which nothing fails. -/
theorem delivered_of_stored_offering :
    ∃ before name content outcome after, readThrough (.offering []) =
        before ++ .stored name content outcome :: after ∧
      ∃ s y stream,
        Session.establish Rehearsal.depots.watched true (some Handover.defaultComment)
          (Rehearsal.offering [], []) = (.ok s, y) ∧
        name = Manifest.resourceName ∧
        s.published.entries.toBytes? (some Handover.defaultComment) .earliest = some content ∧
        ∃ chunks : List Chunk,
          Act.deliveries before =
            .fetched .remote Manifest.resourceName (.ok stream) :: chunks.flatMap Chunk.delivery ∧
          chunks.map Chunk.name <+: s.plan.chunkNames ∧
          (chunks.map Chunk.name = s.plan.chunkNames ↔ ∀ act ∈ before, act.role ≠ .falseEnd) := by
  have hstoring : Act.Role.storing ∈ (readThrough (.offering [])).map Act.role := by
    decide +kernel
  obtain ⟨act, hact, hrole⟩ := List.mem_map.mp hstoring
  obtain ⟨name, content, outcome, rfl⟩ := Act.exists_of_role_storing hrole
  obtain ⟨before, after, heq⟩ := List.append_of_mem hact
  exact ⟨before, name, content, outcome, after, heq, delivered_of_stored heq⟩

/-- **The update is recorded, and the one chunk that was planned was never handed over.** Opening it
    failed as if there were no more chunks. -/
theorem stored_without_delivery :
    (Session.establish Rehearsal.depots true (some Handover.defaultComment)
        (Rehearsal.offering [(Plan.fullChunkName, .exhausted)])).1.toOption.map
          (fun s => s.plan.chunkNames) = some [Plan.fullChunkName] ∧
      (readThrough (.offering [(Plan.fullChunkName, .exhausted)])).filterMap Act.storedName? =
        [Manifest.resourceName] ∧
      (readThrough (.offering [(Plan.fullChunkName, .exhausted)])).filterMap Act.handed? =
        [] := by
  refine ⟨?_, ?_, ?_⟩ <;> decide +kernel

end IndexChain
