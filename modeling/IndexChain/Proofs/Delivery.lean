import IndexChain.Delivery
import IndexChain.Proofs.Run

/-!
# Deliveries — what asking for a chunk can do

`Delivery.next` is unfolded here and nowhere else: `Delivery.Next` lists its outcomes, with the
calls on the places that led to each, and **`next_next` says that the list is complete**. Whatever
is shown of deliveries goes through that list, one case per outcome:

* `drained` — there is nothing to hand out, and nothing was touched;
* `unshut`, `unfetched` — the switch failed, at the chunk that was live or at the one to come, and
  the delivery is over for good;
* `handed` — the chunk was opened, and one name fewer is pending.
-/

namespace IndexChain

/-- The parts that log what a session does. What the places themselves log is up to them. -/
def Depots.parts : List String := ["reader", "planner", "sequencer", "finalizer"]

/-- The operations of a session before its end relate the states before and after them by a
    preorder, however they end. -/
structure Depots.StayWithin {σ : Type} (D : Depots σ) (R : σ → σ → Prop) : Prop where
  refl : ∀ w, R w w
  trans : ∀ u v w, R u v → R v w → R u w
  fetch : ∀ side name, Run.Within R (D.fetch side name)
  read : ∀ i size, Run.Within R (D.read i size)
  shut : ∀ i, Run.Within R (D.shut i)
  note : ∀ {level part} event fields w, part ∈ parts →
    R w (D.note (.ofPart level part event fields) w)

/-- The operations by which a session ends do the same. -/
structure Depots.EndsWithin {σ : Type} (D : Depots σ) (R : σ → σ → Prop) : Prop where
  refl : ∀ w, R w w
  trans : ∀ u v w, R u v → R v w → R u w
  store : ∀ name content, Run.Within R (D.store name content)
  release : ∀ side, Run.Within R (D.release side)
  note : ∀ {level part} event fields w, part ∈ parts →
    R w (D.note (.ofPart level part event fields) w)

theorem Depots.StayWithin.mono {σ : Type} {D : Depots σ} {R S : σ → σ → Prop} (hD : D.StayWithin R)
    (hrefl : ∀ w, S w w) (htrans : ∀ u v w, S u v → S v w → S u w) (h : ∀ {w w'}, R w w' → S w w') :
    D.StayWithin S where
  refl := hrefl
  trans := htrans
  fetch side name w := h (hD.fetch side name w)
  read i size w := h (hD.read i size w)
  shut i w := h (hD.shut i w)
  note event fields w hpart := h (hD.note event fields w hpart)

theorem Depots.StayWithin.log {σ : Type} {D : Depots σ} {R : σ → σ → Prop} (hD : D.StayWithin R)
    {level : Level} {part event : String} {fields : List (Text × Value)} (h : part ∈ parts) :
    Run.Within R (D.log (.ofPart level part event fields)) := fun w => hD.note event fields w h

namespace Delivery

variable {σ : Type} (D : Depots σ)

/-- Closes the chunk that is live, on the places alone. -/
def shutCurrent (d : Delivery) : Run σ Unit :=
  match d.current with
  | none => Run.done ()
  | some chunk => D.shut chunk.stream

theorem dropCurrent_eq (d : Delivery) (w : σ) :
    dropCurrent D (d, w) =
      ((shutCurrent D d w).1, { d with current := none }, (shutCurrent D d w).2) := by
  obtain ⟨pending, delivered, current, stage⟩ := d
  cases current <;> rfl

/-- The fault that a failed switch to a chunk ends in. -/
def switchFault (name : Text) (fault : Fault) : Fault :=
  if fault.isIo then .chunkUnavailable name (some fault) else fault

theorem eq_exhausted_of_switchFault {name : Text} {fault : Fault}
    (h : switchFault name fault = .exhausted) : fault = .exhausted := by
  unfold switchFault at h
  split at h
  · cases h
  · exact h

/-- What is logged about a failed switch. -/
def noteFailure (name : Text) (fault : Fault) (w : σ) : σ :=
  if fault.isIo then
    D.note (.ofPart .warning "sequencer" "Failed to open index chunk"
      [("chunk", .text name), ("error", .text fault.message)]) w
  else w

/-- The delivery after its next chunk was opened. -/
def advanced (d : Delivery) (chunk : Chunk) (rest : List Text) : Delivery :=
  ⟨rest, d.delivered + 1, some chunk, if rest.isEmpty then .exhausted else .iterating⟩

/-- What is logged about an opened chunk. -/
def noteOpened (d : Delivery) (name : Text) (w : σ) : σ :=
  D.note (.ofPart .debug "sequencer" "Opened index chunk"
    [("chunk", .text name), ("position", .int (d.delivered + 1 : Nat))]) w

/-- The outcomes of asking for a chunk. -/
inductive Next (d : Delivery) (w : σ) : Except Fault Chunk → Delivery → σ → Prop
  | drained : d.stage = .failed ∨ d.pending = [] → Next d w (.error .exhausted) d w
  | unshut {name : Text} {rest : List Text} {fault : Fault} {w' : σ} :
      d.stage ≠ .failed → d.pending = name :: rest → shutCurrent D d w = (.error fault, w') →
      Next d w (.error (switchFault name fault)) { d with current := none, stage := .failed }
        (noteFailure D name fault w')
  | unfetched {name : Text} {rest : List Text} {fault : Fault} {w₁ w' : σ} :
      d.stage ≠ .failed → d.pending = name :: rest → shutCurrent D d w = (.ok (), w₁) →
      D.fetch .remote name w₁ = (.error fault, w') →
      Next d w (.error (switchFault name fault)) { d with current := none, stage := .failed }
        (noteFailure D name fault w')
  | handed {name : Text} {rest : List Text} {stream : StreamId} {w₁ w₂ : σ} :
      d.stage ≠ .failed → d.pending = name :: rest → shutCurrent D d w = (.ok (), w₁) →
      D.fetch .remote name w₁ = (.ok stream, w₂) →
      Next d w (.ok ⟨name, stream⟩) (advanced d ⟨name, stream⟩ rest) (noteOpened D d name w₂)

theorem giveUp_eq (name : Text) (fault : Fault) (d : Delivery) (w : σ) :
    giveUp D name fault (d, w) =
      (.error (switchFault name fault), { d with stage := .failed },
        noteFailure D name fault w) := by
  unfold giveUp switchFault noteFailure
  by_cases h : fault.isIo <;> simp [h]

/-- No switch has failed at the start. -/
theorem stage_ofNames_ne_failed (names : List Text) : (ofNames names).stage ≠ .failed := by
  unfold ofNames
  simp only
  split <;> simp

/-- **Asking for a chunk ends in one of these ways.** -/
theorem next_next (d : Delivery) (w : σ) :
    Next D d w (next D (d, w)).1 (next D (d, w)).2.1 (next D (d, w)).2.2 := by
  unfold next
  by_cases hfailed : d.stage = .failed
  · simp only [hfailed, if_true]
    exact .drained (.inl hfailed)
  simp only [hfailed, if_false]
  cases hpending : d.pending with
  | nil => exact .drained (.inr hpending)
  | cons name rest =>
    simp only [dropCurrent_eq]
    rcases hshut : shutCurrent D d w with ⟨fault | ⟨⟩, w₁⟩
    · simp only [giveUp_eq]
      exact .unshut hfailed hpending hshut
    · simp only
      rcases hfetch : D.fetch .remote name w₁ with ⟨fault | stream, w₂⟩
      · simp only [giveUp_eq]
        exact .unfetched hfailed hpending hshut hfetch
      · exact .handed hfailed hpending hshut hfetch

theorem close_eq (d : Delivery) (w : σ) :
    close D (d, w) =
      ((shutCurrent D d w).1,
        (match (shutCurrent D d w).1 with
          | .error _ => { d with current := none }
          | .ok () =>
            if d.stage = .failed then { d with current := none }
            else { d with current := none, pending := [], stage := .exhausted }),
        (shutCurrent D d w).2) := by
  simp only [close, dropCurrent_eq]
  rcases hshut : shutCurrent D d w with ⟨fault | ⟨⟩, w₁⟩
  · rfl
  · by_cases hfailed : d.stage = .failed <;> simp [hfailed]

/-! ## What deliveries leave alone -/

section StayWithin

variable {D} {R : σ → σ → Prop}

theorem shutCurrent_within (hD : D.StayWithin R) (d : Delivery) :
    Run.Within R (shutCurrent D d) := by
  unfold shutCurrent
  cases d.current with
  | none => exact hD.refl
  | some chunk => exact hD.shut chunk.stream

theorem noteFailure_within (hD : D.StayWithin R) (name : Text) (fault : Fault) (w : σ) :
    R w (noteFailure D name fault w) := by
  unfold noteFailure
  split
  · exact hD.note _ _ w (by decide)
  · exact hD.refl w

theorem next_within (hD : D.StayWithin R) : Run.Within (fun x y => R x.2 y.2) (next D) := by
  intro (d, w)
  have hnext := next_next D d w
  generalize next D (d, w) = r at hnext
  obtain ⟨o, d', w'⟩ := r
  -- what was done to the places, outcome by outcome
  cases hnext with
  | drained => exact hD.refl _
  | unshut _ _ hshut =>
    exact hD.trans _ _ _ ((shutCurrent_within hD d).of_eq hshut) (noteFailure_within hD _ _ _)
  | unfetched _ _ hshut hfetch =>
    exact hD.trans _ _ _ ((shutCurrent_within hD d).of_eq hshut)
      (hD.trans _ _ _ ((hD.fetch _ _).of_eq hfetch) (noteFailure_within hD _ _ _))
  | handed _ _ hshut hfetch =>
    exact hD.trans _ _ _ ((shutCurrent_within hD d).of_eq hshut)
      (hD.trans _ _ _ ((hD.fetch _ _).of_eq hfetch) (hD.note _ _ _ (by decide)))

theorem close_within (hD : D.StayWithin R) : Run.Within (fun x y => R x.2 y.2) (close D) := by
  intro (d, w)
  rw [close_eq]
  exact shutCurrent_within hD d w

end StayWithin

end Delivery

end IndexChain
