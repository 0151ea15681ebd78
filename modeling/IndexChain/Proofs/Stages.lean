import IndexChain.Proofs.Streams

/-!
# Stages — what the stage of a delivery tells

A delivery keeps its stage, the names that are pending and the live chunk apart, and each is changed
on several ways: when a chunk is handed out, when a switch fails, when the delivery is closed and
when that fails. `InStage` says how they go together with what was opened, one case per stage:

* `idle` — nothing was opened, and all names are pending;
* `iterating` — some chunks were opened, and the names that are pending are the rest of the plan;
* `exhausted` — nothing is pending;
* `failed` — there is no live chunk.

Every step of a caller keeps this (`InStage.of_stepped`), so after any number of steps **the stage
tells whether there is a next chunk, and the last two stages are never left** (`stage_after_steps`).

A failed switch is the one to the chunk that was to come, even if it was the chunk before it that
could not be closed. This is what becomes of input and output operations that fail in the same step,
and of nothing else; but a place may fail with a switch of its own, which is passed on as it is
(`unavailable_without_io`).
-/

namespace IndexChain

variable {σ : Type}

namespace Act

/-- The chunk that was opened at the remote place. -/
def openedChunk? : Act → Option Chunk
  | fetched .remote name (.ok i) => some ⟨name, i⟩
  | _ => none

/-- The chunks that were opened, in order. -/
def openedChunks (acts : List Act) : List Chunk := acts.filterMap openedChunk?

/-- What the operation failed with. -/
def fault? : Act → Option Fault
  | fetched _ _ (.error fault) | read _ (.error fault) | shut _ (.error fault)
  | stored _ _ (.error fault)
  | released _ (.error fault) => some fault
  | _ => none

/-- What the operations failed with, in order. -/
def faults (acts : List Act) : List Fault := acts.filterMap fault?

@[simp] theorem faults_append (acts added : List Act) :
    faults (acts ++ added) = faults acts ++ faults added :=
  List.filterMap_append

@[simp] theorem faults_fetched_ok (side : Side) (name : Text) (i : StreamId) :
    faults [fetched side name (.ok i)] = [] := rfl

@[simp] theorem faults_fetched_error (side : Side) (name : Text) (fault : Fault) :
    faults [fetched side name (.error fault)] = [fault] := rfl

@[simp] theorem faults_shut_error (i : StreamId) (fault : Fault) :
    faults [shut i (.error fault)] = [fault] := rfl

@[simp] theorem openedChunks_append (acts added : List Act) :
    openedChunks (acts ++ added) = openedChunks acts ++ openedChunks added :=
  List.filterMap_append

@[simp] theorem openedChunks_nil : openedChunks [] = [] := rfl

@[simp] theorem openedChunks_read (i : StreamId) (o : Except Fault Bytes) :
    openedChunks [read i o] = [] := rfl

@[simp] theorem openedChunks_shut (i : StreamId) (o : Except Fault Unit) :
    openedChunks [shut i o] = [] := rfl

@[simp] theorem openedChunks_fetched_ok (name : Text) (i : StreamId) :
    openedChunks [fetched .remote name (.ok i)] = [⟨name, i⟩] := rfl

@[simp] theorem openedChunks_fetched_error (name : Text) (fault : Fault) :
    openedChunks [fetched .remote name (.error fault)] = [] := rfl

end Act

namespace Delivery

variable {names : List Text} {d d' : Delivery} {acts added : List Act}

@[simp] theorem openedChunks_shutting (d : Delivery) : Act.openedChunks d.shutting = [] := by
  unfold shutting
  cases d.current <;> rfl

/-! ## 1. The stages -/

/-- How the parts of a delivery go together with what was opened, by its stage. -/
inductive InStage (names : List Text) (d : Delivery) (acts : List Act) : Prop
  | idle (stage : d.stage = .idle) (pending : d.pending = names) (more : names ≠ [])
      (current : d.current = none) (opened : Act.openedChunks acts = [])
  | iterating (stage : d.stage = .iterating) (opened : Act.openedChunks acts ≠ [])
      (more : d.pending ≠ [])
      (inOrder : (Act.openedChunks acts).map Chunk.name ++ d.pending = names)
      (live : ∀ chunk, d.current = some chunk → (Act.openedChunks acts).getLast? = some chunk)
  | exhausted (stage : d.stage = .exhausted) (pending : d.pending = [])
      (live : ∀ chunk, d.current = some chunk → (Act.openedChunks acts).getLast? = some chunk)
  | failed (stage : d.stage = .failed) (current : d.current = none)

theorem inStage_ofNames (names : List Text) : InStage names (.ofNames names) [] := by
  cases names with
  | nil => exact .exhausted rfl rfl nofun
  | cons name rest => exact .idle rfl rfl (by simp) rfl rfl

namespace InStage

theorem hasNext_iff (h : InStage names d acts) :
    d.hasNext = true ↔ d.stage = .idle ∨ d.stage = .iterating := by
  rw [Delivery.hasNext_iff]
  cases h with
  | idle stage pending more => simp [stage, pending, more]
  | iterating stage _ more => simp [stage, more]
  | exhausted stage pending => simp [stage, pending]
  | failed stage => simp [stage]

theorem of_opened (h : InStage names d acts) (hadded : Act.openedChunks added = []) :
    InStage names d (acts ++ added) := by
  have hopened : Act.openedChunks (acts ++ added) = Act.openedChunks acts := by simp [hadded]
  cases h with
  | idle stage pending more current opened =>
    exact .idle stage pending more current (hopened ▸ opened)
  | iterating stage opened more inOrder live =>
    exact .iterating stage (hopened ▸ opened) more (hopened ▸ inOrder) (hopened ▸ live)
  | exhausted stage pending live => exact .exhausted stage pending (hopened ▸ live)
  | failed stage current => exact .failed stage current

/-- The live chunk may be given up in every stage. -/
theorem dropped (h : InStage names d acts) : InStage names { d with current := none } acts := by
  cases h with
  | idle stage pending more _ opened => exact .idle stage pending more rfl opened
  | iterating stage opened more inOrder => exact .iterating stage opened more inOrder nofun
  | exhausted stage pending => exact .exhausted stage pending nofun
  | failed stage => exact .failed stage rfl

/-- What was opened and what is pending make up the plan while there is more to come. -/
theorem opened_append_pending (h : InStage names d acts) (hnext : d.hasNext = true) :
    (Act.openedChunks acts).map Chunk.name ++ d.pending = names := by
  cases h with
  | idle _ pending _ _ opened => simp [opened, pending]
  | iterating _ _ _ inOrder => exact inOrder
  | exhausted stage pending => exact absurd pending (Delivery.hasNext_iff.mp hnext).2
  | failed stage => exact absurd stage (Delivery.hasNext_iff.mp hnext).1

theorem of_asked {o : Except Fault Chunk} (h : InStage names d acts) (hlist : Asked d o d' added) :
    InStage names d' (acts ++ added) := by
  cases hlist with
  | drained => exact h.of_opened rfl
  | unshut | unfetched => exact .failed rfl rfl
  | @handed name rest stream hstage hpending =>
    have hnames := h.opened_append_pending (Delivery.hasNext_iff.mpr ⟨hstage, by simp [hpending]⟩)
    have hopened : Act.openedChunks (acts ++ (d.shutting ++ [.fetched .remote name (.ok stream)])) =
        Act.openedChunks acts ++ [⟨name, stream⟩] := by simp
    have hlive : ∀ chunk, (advanced d ⟨name, stream⟩ rest).current = some chunk →
        (Act.openedChunks (acts ++ (d.shutting ++ [.fetched .remote name (.ok stream)]))).getLast? =
          some chunk := by
      rintro chunk ⟨⟩
      rw [hopened, List.getLast?_concat]
    cases rest with
    | nil => exact .exhausted rfl rfl hlive
    | cons name' rest =>
      refine .iterating rfl (by simp) (by simp [advanced]) ?_ hlive
      rw [hopened, ← hnames, hpending]
      simp [advanced]

theorem of_closed {o : Except Fault Unit} (h : InStage names d acts) (hlist : Closed d o d' added) :
    InStage names d' (acts ++ added) := by
  cases hlist with
  | unshut => exact h.dropped.of_opened rfl
  | failed => exact h.dropped.of_opened (openedChunks_shutting d)
  | ended => exact .exhausted rfl rfl nofun

/-- **Every step of a caller keeps the stages.** -/
theorem of_stepped (h : InStage names d acts) (hstep : Stepped d d' added) :
    InStage names d' (acts ++ added) := by
  cases hstep with
  | asked hlist => exact h.of_asked hlist
  | closed hlist => exact h.of_closed hlist
  | read | shut => exact h.of_opened rfl

theorem of_uses {D : Depots σ} {x y : Delivery × (σ × List Act)} (h : InStage names x.1 x.2.2)
    (huses : Uses D.watched x y) : InStage names y.1 y.2.2 := by
  induction huses with
  | refl => exact h
  | tail _ huse ih =>
    obtain ⟨added, hacts, hstep⟩ := huse.stepped
    rw [hacts]
    exact ih.of_stepped hstep

end InStage

/-! ## 2. Stages that are left, and stages that are not -/

/-- The first stage is not come back to. -/
theorem Stepped.stage_ne_idle (hstep : Stepped d d' added) (h : d.stage ≠ .idle) :
    d'.stage ≠ .idle := by
  cases hstep with
  | asked hlist =>
    cases hlist with
    | drained => exact h
    | unshut | unfetched => exact nofun
    | @handed _ rest => cases rest <;> exact nofun
  | closed hlist =>
    cases hlist with
    | unshut | failed => exact h
    | ended => exact nofun
  | read | shut => exact h

theorem Asked.stage_ne_idle {o : Except Fault Chunk} (hlist : Asked d o d' added)
    (h : d.hasNext = true) : d'.stage ≠ .idle := by
  cases hlist with
  | drained hover =>
    rw [h] at hover
    cases hover
  | unshut | unfetched => exact nofun
  | @handed _ rest => cases rest <;> exact nofun

/-- Closing a delivery ends the first stage, since there is no chunk that could not be closed. -/
theorem Closed.stage_ne_idle {o : Except Fault Unit} (hlist : Closed d o d' added)
    (h : d.current = none) : d'.stage ≠ .idle := by
  cases hlist with
  | unshut hcurrent =>
    rw [h] at hcurrent
    cases hcurrent
  | failed stage => exact fun hidle => nomatch stage.symm.trans hidle
  | ended => exact nofun

/-- A delivery that has no next chunk keeps its stage once it is in one of the last two. -/
theorem Stepped.stage_eq (hstep : Stepped d d' added) (hover : d.hasNext = false)
    (h : d.stage = .exhausted ∨ d.stage = .failed) : d'.stage = d.stage := by
  cases hstep with
  | asked hlist => rw [(hlist.of_over hover).1]
  | closed hlist =>
    cases hlist with
    | unshut | failed => rfl
    | ended stage => exact (h.resolve_right stage).symm
  | read | shut => rfl

section Uses

variable {D : Depots σ} {x y : Delivery × (σ × List Act)}

theorem Uses.stage_ne_idle (huses : Uses D.watched x y) (h : x.1.stage ≠ .idle) :
    y.1.stage ≠ .idle := by
  induction huses with
  | refl => exact h
  | tail _ huse ih =>
    obtain ⟨_, -, hstep⟩ := huse.stepped
    exact hstep.stage_ne_idle ih

theorem Uses.stage_eq (huses : Uses D.watched x y) (hover : x.1.hasNext = false)
    (h : x.1.stage = .exhausted ∨ x.1.stage = .failed) : y.1.stage = x.1.stage := by
  induction huses with
  | refl => rfl
  | tail hbefore huse ih =>
    obtain ⟨_, -, hstep⟩ := huse.stepped
    rw [← ih] at h ⊢
    exact hstep.stage_eq (Uses.of_over hbefore hover).1 h

end Uses

/-! ## 3. Switches that fail -/

theorem switchFault_eq_unavailable_iff {name name' : Text} {fault : Fault} {cause : Option Fault} :
    switchFault name fault = .chunkUnavailable name' cause ↔
      fault.isIo = true ∧ name' = name ∧ cause = some fault ∨
      fault = .chunkUnavailable name' cause := by
  unfold switchFault
  by_cases hio : fault.isIo = true
  · have hother : fault ≠ .chunkUnavailable name' cause := by
      rintro rfl
      cases hio
    simp [hio, hother, eq_comm]
  · simp [hio]

@[simp] theorem faults_shutting (d : Delivery) : Act.faults d.shutting = [] := by
  unfold shutting
  cases d.current <;> rfl

/-- Asking for a chunk fails with what its operations fail with, as the switch to that chunk. -/
theorem Asked.eq_error_iff {o : Except Fault Chunk} {name : Text} {rest : List Text}
    (h : Asked d o d' added) (hstage : d.stage ≠ .failed) (hpending : d.pending = name :: rest)
    {fault : Fault} :
    o = .error fault ↔ ∃ cause ∈ Act.faults added, switchFault name cause = fault := by
  cases h with
  | drained hover =>
    rw [Delivery.hasNext_iff.mpr ⟨hstage, by simp [hpending]⟩] at hover
    cases hover
  | unshut _ hpending' | unfetched _ hpending' =>
    obtain ⟨rfl, -⟩ := List.cons.inj (hpending.symm.trans hpending')
    simp
  | handed => simp

/-- The only operations are to close the live chunk and to open the one to come. -/
theorem Asked.shut_or_fetched {o : Except Fault Chunk} {name : Text} {rest : List Text}
    (h : Asked d o d' added) (hpending : d.pending = name :: rest) {act : Act}
    (hact : act ∈ added) :
    (∃ chunk outcome, d.current = some chunk ∧ act = .shut chunk.stream outcome) ∨
      ∃ outcome, act = .fetched .remote name outcome := by
  have hshutting (hmem : act ∈ d.shutting) :
      ∃ chunk outcome, d.current = some chunk ∧ act = .shut chunk.stream outcome := by
    unfold shutting at hmem
    cases hcurrent : d.current with
    | none => simp [hcurrent] at hmem
    | some chunk => exact ⟨chunk, .ok (), rfl, by simpa [hcurrent] using hmem⟩
  cases h with
  | drained => cases hact
  | unshut _ _ hcurrent => exact .inl ⟨_, _, hcurrent, List.mem_singleton.mp hact⟩
  | unfetched _ hpending' | handed _ hpending' =>
    obtain ⟨rfl, -⟩ := List.cons.inj (hpending.symm.trans hpending')
    rcases List.mem_append.mp hact with hact | hact
    · exact .inl (hshutting hact)
    · exact .inr ⟨_, List.mem_singleton.mp hact⟩

theorem Closed.openedChunks_eq {o : Except Fault Unit} (hlist : Closed d o d' added) :
    Act.openedChunks added = [] := by
  cases hlist with
  | unshut => rfl
  | failed | ended => exact openedChunks_shutting d

/-- A delivery that has no next chunk does nothing when it is asked for one. -/
theorem next_of_over (D : Depots σ) (w : σ) (h : d.hasNext = false) :
    next D (d, w) = (.error .exhausted, d, w) := by
  have hnext := next_next D d w
  generalize next D (d, w) = r at hnext
  obtain ⟨o, d', w'⟩ := r
  cases hnext with
  | drained => rfl
  | unshut hstage hpending | unfetched hstage hpending | handed hstage hpending =>
    rw [Delivery.hasNext_iff.mpr ⟨hstage, by simp [hpending]⟩] at h
    cases h

end Delivery

/-! ## 4. Callers -/

namespace Usage.DeliveryCaller

open Delivery

variable {D : Depots σ} {names : List Text} {w : σ} {x : DeliveryCaller × (σ × List Act)}

/-- The caller of a new delivery of some chunks, before anything happened. -/
def start (names : List Text) (w : σ) : DeliveryCaller × (σ × List Act) :=
  ({ delivery := .ofNames names }, (w, []))

/-- The state after some steps, however they end. -/
def after (D : Depots σ) (steps : List DeliveryStep) (x : DeliveryCaller × σ) :
    DeliveryCaller × σ :=
  steps.foldl (fun x s => (step D s x).2) x

theorem after_concat (D : Depots σ) (steps : List DeliveryStep) (s : DeliveryStep)
    (x : DeliveryCaller × σ) : after D (steps ++ [s]) x = (step D s (after D steps x)).2 := by
  simp [after]

theorem drives_after (D : Depots σ) (steps : List DeliveryStep) (x : DeliveryCaller × σ) :
    Drives D x (after D steps x) := by
  induction steps using List.reverseRecOn with
  | nil => exact Drives.refl x
  | append_singleton steps s ih =>
    rw [after_concat]
    exact ih.trans _ _ _ (step_drives s _)

/-- What asking for a chunk adds to the history, and to the chunks of the caller. -/
theorem takeNext_asked (D : Depots σ) (x : DeliveryCaller × (σ × List Act)) :
    ∃ added, (takeNext D.watched x).2.2.2 = x.2.2 ++ added ∧
      Asked x.1.delivery (takeNext D.watched x).1 (takeNext D.watched x).2.1.delivery added ∧
      (takeNext D.watched x).2.1.chunks = x.1.chunks ++ Act.openedChunks added := by
  obtain ⟨c, x⟩ := x
  obtain ⟨added, hacts, hlist⟩ := next_asked D (c.delivery, x)
  rcases hnext : next D.watched (c.delivery, x) with ⟨fault | chunk, d, y⟩
  · rw [hnext] at hacts hlist
    have htaken : takeNext D.watched (c, x) = (.error fault, { c with delivery := d }, y) :=
      Run.bind_of_error (by simp [onDelivery, hnext])
    rw [htaken]
    refine ⟨added, hacts, hlist, ?_⟩
    cases hlist <;> simp
  · rw [hnext] at hacts hlist
    have htaken : takeNext D.watched (c, x) = (.ok chunk, ⟨d, c.chunks ++ [chunk]⟩, y) := by
      refine (Run.bind_of_ok (a := chunk) (t := ({ c with delivery := d }, y)) ?_).trans rfl
      simp [onDelivery, hnext]
    rw [htaken]
    refine ⟨added, hacts, hlist, ?_⟩
    cases hlist
    simp

theorem takeNext_of_over (D : Depots σ) (x : DeliveryCaller × σ)
    (h : x.1.delivery.hasNext = false) : takeNext D x = (.error .exhausted, x) :=
  Run.bind_of_error (by simp [onDelivery, next_of_over D x.2 h])

theorem step_next (D : Depots σ) (x : DeliveryCaller × σ) :
    step D .next x = ((takeNext D x).1.map fun chunk => .name chunk.name, (takeNext D x).2) :=
  Run.bind_pure_apply (takeNext D) _ x

theorem step_close (D : Depots σ) (x : DeliveryCaller × σ) :
    step D .close x = ((onDelivery (close D) x).1.map fun _ => .nothing,
      (onDelivery (close D) x).2) :=
  Run.bind_pure_apply (onDelivery (close D)) _ x

/-! ### The chunks of a caller -/

/-- Callers keep the chunks that were opened. -/
def KeepsOpened (x : DeliveryCaller × (σ × List Act)) : Prop := x.1.chunks = Act.openedChunks x.2.2

theorem takeNext_keepsOpened :
    Run.Within (fun x y => KeepsOpened x → KeepsOpened y) (takeNext D.watched) := by
  intro x h
  obtain ⟨added, hacts, -, hchunks⟩ := takeNext_asked D x
  show (takeNext D.watched x).2.1.chunks = Act.openedChunks (takeNext D.watched x).2.2.2
  rw [hacts, hchunks, Act.openedChunks_append, h]

theorem KeepsOpened.read {c : DeliveryCaller} {u : σ × List Act} (h : KeepsOpened (c, u))
    (i : StreamId) (size : Option Nat) : KeepsOpened (c, (D.watched.read i size u).2) := by
  show c.chunks = Act.openedChunks (u.2 ++ [.read i _])
  rw [Act.openedChunks_append, Act.openedChunks_read, List.append_nil]
  exact h

theorem KeepsOpened.shut {c : DeliveryCaller} {u : σ × List Act} (h : KeepsOpened (c, u))
    (i : StreamId) : KeepsOpened (c, (D.watched.shut i u).2) := by
  show c.chunks = Act.openedChunks (u.2 ++ [.shut i _])
  rw [Act.openedChunks_append, Act.openedChunks_shut, List.append_nil]
  exact h

theorem step_keepsOpened (s : DeliveryStep) :
    Run.Within (fun x y => KeepsOpened x → KeepsOpened y) (step D.watched s) := by
  have hrefl (x : DeliveryCaller × (σ × List Act)) : KeepsOpened x → KeepsOpened x := id
  have htrans (x y z : DeliveryCaller × (σ × List Act)) (hxy : KeepsOpened x → KeepsOpened y)
      (hyz : KeepsOpened y → KeepsOpened z) (h : KeepsOpened x) : KeepsOpened z := hyz (hxy h)
  cases s with
  | next => exact .bind htrans takeNext_keepsOpened fun _ => .pure hrefl _
  | hasNext => exact hrefl
  | close =>
    refine .bind htrans (fun x h => ?_) fun _ => .pure hrefl _
    obtain ⟨added, hacts, hlist⟩ := close_closed D (x.1.delivery, x.2)
    show x.1.chunks = Act.openedChunks (close D.watched (x.1.delivery, x.2)).2.2.2
    rw [hacts, Act.openedChunks_append, hlist.openedChunks_eq, List.append_nil, h]
  | drain =>
    rintro ⟨c, w⟩
    refine Run.Within.bind htrans (.forEach hrefl htrans takeNext_keepsOpened ?_ _ _ _)
      (fun _ => .pure hrefl _) (c, w)
    intro k chunk
    exact .bind htrans (fun x h => h.read chunk.stream none) fun _ => .pure hrefl _
  | chunk i t =>
    rintro ⟨c, w⟩
    simp only [step]
    cases itemAt? c.chunks i with
    | none => exact hrefl _
    | some chunk =>
      exact onChunk_within (R := fun u v => KeepsOpened (c, u) → KeepsOpened (c, v)) (fun _ => id)
        (fun _ _ _ huv hvw h => hvw (huv h)) (fun i size u h => h.read i size)
        (fun i u h => h.shut i) chunk t w

theorem keepsOpened_after (D : Depots σ) (names : List Text) (w : σ) (steps : List DeliveryStep) :
    KeepsOpened (after D.watched steps (start names w)) := by
  induction steps using List.reverseRecOn with
  | nil => rfl
  | append_singleton steps s ih =>
    rw [after_concat]
    exact step_keepsOpened s _ ih

/-! ### Before anything happened -/

/-- Loops over chunks begin by asking for one. -/
theorem drain_drives (x : DeliveryCaller × σ) : Drives D (takeNext D x).2 (step D .drain x).2 := by
  obtain ⟨c, w⟩ := x
  have hread (k : Nat) (chunk : Chunk) :
      Run.Within (Drives D)
        (do return (chunk.name, ← onDepots (chunk.read D none)) : Run _ (Text × Bytes)) :=
    .bind Drives.trans (fun x => .single (.read chunk.stream none x.1.delivery x.2)) fun _ =>
      .pure Drives.refl _
  simp only [step, Run.bind_pure_apply]
  exact Run.Within.forEach_succ Drives.refl Drives.trans hread
    (.forEach Drives.refl Drives.trans takeNext_drives hread _) 0 [] (c, w)

/-- The steps that open nothing and close nothing. -/
def isLooking : DeliveryStep → Bool
  | .hasNext | .chunk .. => true
  | .next | .close | .drain => false

theorem step_start (D : Depots σ) {names : List Text} (hnames : names ≠ []) (w : σ)
    (s : DeliveryStep) :
    (isLooking s = true → (step D.watched s (start names w)).2 = start names w) ∧
    (isLooking s = false → (step D.watched s (start names w)).2.1.delivery.stage ≠ .idle) := by
  have hmore : (start names w).1.delivery.hasNext = true :=
    (inStage_ofNames names).hasNext_iff.mpr (.inl (by simp [ofNames, hnames]))
  have htaken : (takeNext D.watched (start names w)).2.1.delivery.stage ≠ .idle := by
    obtain ⟨added, -, hlist, -⟩ := takeNext_asked D (start names w)
    exact hlist.stage_ne_idle hmore
  cases s with
  | next =>
    rw [step_next]
    exact ⟨nofun, fun _ => htaken⟩
  | hasNext => exact ⟨fun _ => rfl, nofun⟩
  | close =>
    obtain ⟨added, -, hlist⟩ := close_closed D ((start names w).1.delivery, (start names w).2)
    rw [step_close]
    exact ⟨nofun, fun _ => hlist.stage_ne_idle rfl⟩
  | drain => exact ⟨nofun, fun _ => Uses.stage_ne_idle (drain_drives _) htaken⟩
  | chunk i t =>
    refine ⟨fun _ => ?_, nofun⟩
    simp [step, start, itemAt?]

/-- In the first stage nothing happened yet. -/
theorem eq_start_of_idle (D : Depots σ) (names : List Text) (w : σ) {steps : List DeliveryStep}
    (h : (after D.watched steps (start names w)).1.delivery.stage = .idle) :
    after D.watched steps (start names w) = start names w ∧ ∀ s ∈ steps, isLooking s = true := by
  induction steps using List.reverseRecOn with
  | nil => exact ⟨rfl, by simp⟩
  | append_singleton steps s ih =>
    rw [after_concat] at h ⊢
    have hidle : (after D.watched steps (start names w)).1.delivery.stage = .idle := by
      by_contra hne
      exact Uses.stage_ne_idle (step_drives s _) hne h
    obtain ⟨hstart, hall⟩ := ih hidle
    rw [hstart] at h hidle ⊢
    have hnames : names ≠ [] := by
      rintro rfl
      cases hidle
    cases hlooking : isLooking s with
    | false => exact absurd h ((step_start D hnames w s).2 hlooking)
    | true =>
      refine ⟨(step_start D hnames w s).1 hlooking, fun t ht => ?_⟩
      rcases List.mem_append.mp ht with ht | ht
      · exact hall t ht
      · exact List.mem_singleton.mp ht ▸ hlooking

/-- **What the stage of a delivery tells**, whatever its caller did and whatever failed:

* there is a next chunk in the first two stages, and in no others;
* in the first nothing was done to the places, and the delivery was not closed;
* in the second some chunks were opened, and not all;
* only in the second and third may there be a live chunk, and it is the one handed out last;
* the last two are never left.

Asking for a chunk when there is no next one leaves everything as it is. When there is one, only the
live chunk may be closed and the next one opened; and asking fails as a switch exactly if one of the
two fails in that step as an input or output operation, and then names the chunk that was to come,
or has failed as a switch itself, and then is passed on as it is (`unavailable_without_io`). -/
theorem stage_after_steps (D : Depots σ) (names : List Text) (w : σ) (steps : List DeliveryStep) :
    let x := after D.watched steps (start names w)
    let d := x.1.delivery
    (d.hasNext = true ↔ d.stage = .idle ∨ d.stage = .iterating) ∧
    (d.stage = .idle → x = start names w ∧ .next ∉ steps ∧ .drain ∉ steps ∧ .close ∉ steps) ∧
    (d.stage = .iterating → Act.openedChunks x.2.2 ≠ [] ∧ d.pending ≠ [] ∧
      (Act.openedChunks x.2.2).map Chunk.name ++ d.pending = names) ∧
    x.1.chunks = Act.openedChunks x.2.2 ∧
    (∀ chunk, d.current = some chunk →
      (d.stage = .iterating ∨ d.stage = .exhausted) ∧ x.1.chunks.getLast? = some chunk) ∧
    (d.stage = .exhausted ∨ d.stage = .failed →
      ∀ more, (after D.watched more x).1.delivery.stage = d.stage) ∧
    (d.hasNext = false → step D.watched .next x = (.error .exhausted, x)) ∧
    (d.hasNext = true → ∃ name rest added, d.pending = name :: rest ∧
      (step D.watched .next x).2.2.2 = x.2.2 ++ added ∧
      (∀ act ∈ added, (∃ chunk outcome, d.current = some chunk ∧ act = .shut chunk.stream outcome) ∨
        ∃ outcome, act = .fetched .remote name outcome) ∧
      ∀ name' cause, (step D.watched .next x).1 = .error (.chunkUnavailable name' cause) ↔
        ∃ fault ∈ Act.faults added, fault.isIo = true ∧ name' = name ∧ cause = some fault ∨
          fault = .chunkUnavailable name' cause) := by
  intro x d
  have hstage : InStage names d x.2.2 :=
    (inStage_ofNames names).of_uses (drives_after D.watched steps _)
  have hchunks : x.1.chunks = Act.openedChunks x.2.2 := keepsOpened_after D names w steps
  refine ⟨hstage.hasNext_iff, fun hidle => ?_, fun hiterating => ?_, hchunks,
    fun chunk hcurrent => ?_, fun hend more => ?_, fun hover => ?_, fun hmore => ?_⟩
  · obtain ⟨hstart, hall⟩ := eq_start_of_idle D names w hidle
    have hnot (s : DeliveryStep) (hs : isLooking s = false) : s ∉ steps := fun hmem =>
      nomatch (hall s hmem).symm.trans hs
    exact ⟨hstart, hnot _ rfl, hnot _ rfl, hnot _ rfl⟩
  · cases hstage with
    | iterating _ opened more inOrder => exact ⟨opened, more, inOrder⟩
    | idle stage | exhausted stage | failed stage => cases stage.symm.trans hiterating
  · rw [hchunks]
    cases hstage with
    | iterating stage _ _ _ live => exact ⟨.inl stage, live chunk hcurrent⟩
    | exhausted stage _ live => exact ⟨.inr stage, live chunk hcurrent⟩
    | idle _ _ _ current | failed _ current => cases current.symm.trans hcurrent
  · refine Uses.stage_eq (drives_after D.watched more x) (Bool.eq_false_iff.mpr fun hmore => ?_)
      hend
    rcases hend with hend | hend <;> rcases hstage.hasNext_iff.mp hmore with h | h <;>
      cases hend.symm.trans h
  · rw [step_next, takeNext_of_over D.watched x hover]
    rfl
  · obtain ⟨hnot, hpending⟩ := Delivery.hasNext_iff.mp hmore
    obtain ⟨name, rest, hpending⟩ := List.exists_cons_of_ne_nil hpending
    obtain ⟨added, hacts, hlist, -⟩ := takeNext_asked D x
    rw [step_next]
    refine ⟨name, rest, added, hpending, hacts, fun act => hlist.shut_or_fetched hpending,
      fun name' cause => ?_⟩
    rw [Run.map_eq_error_iff, hlist.eq_error_iff hnot hpending]
    simp only [switchFault_eq_unavailable_iff]

/-- The first chunk cannot be closed: it is the switch to the second that fails. -/
example :
    (step Rehearsal.depots.watched .next (after Rehearsal.depots.watched [.next] (start ["a", "b"]
      { remote :=
          { resources := [("a", []), ("b", [])], failClose := [("a", .io .general)] } }))).1 =
      .error (.chunkUnavailable "b" (some (.io .general "cannot close a"))) := rfl

/-- Rehearsed places whose remote one opens nothing, since it takes its resources from a delivery of
its own parts. -/
def ofParts : Depots Rehearsal :=
  { Rehearsal.depots with fetch := fun _ _ r => (.error (.chunkUnavailable "part" none), r) }

/-- The failure of a switch need not come from an input or output operation, nor name the chunk that
was to come: the place may have failed on a switch of its own. And such an operation makes the
switch fail only in the same step: a failure to close the live chunk that its caller has met before
is of no account. -/
theorem unavailable_without_io :
    let x := step ofParts.watched .next (start ["a"] {})
    let remote : Rehearsal.Place :=
      { resources := [("a", []), ("b", [])], failClose := [("a", .io .general)] }
    let y := after Rehearsal.depots.watched [.next, .chunk 0 .close]
        (start ["a", "b"] { remote := remote })
    x.1 = .error (.chunkUnavailable "part" none) ∧
    (∀ fault ∈ Act.faults x.2.2.2, fault.isIo = false) ∧
    (∃ fault ∈ Act.faults y.2.2, fault.isIo = true) ∧
    (step Rehearsal.depots.watched .next y).1 = .ok (.name "b") :=
  ⟨rfl, by decide, by decide, rfl⟩

end Usage.DeliveryCaller

end IndexChain
