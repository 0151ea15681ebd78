import IndexChain.Proofs.Order

/-!
# Streams — taking turns

From a history it can be told of each stream whether it is open (`stateAfter`), and whether an
attempt to close it has failed. Streams **take turns** (`Turns`): whoever opens one holds it, and
the next is opened only when nothing is held. A hold is given up by closing the stream, *whatever
comes of it*.

* What is open and nobody tried to close is held (`Turns.held_of_opened`). So if streams can be
  closed, never more than one is open.
* The streams that a delivery opens take turns, with the live chunk's stream held (`turns_of_uses`).
-/

namespace IndexChain

variable {σ : Type}

/-- How a stream stands. -/
inductive StreamState
  /-- It is closed, or was never opened. -/
  | closed
  | opened
  /-- It is open, and an attempt to close it failed. -/
  | stuck
deriving DecidableEq

namespace Act

/-- The stream that was opened. -/
def opens? : Act → Option StreamId
  | fetched _ _ (.ok i) => some i
  | _ => none

/-- Whether nothing was opened. -/
def OpensNothing (act : Act) : Prop := act.opens? = none

/-- How a stream stands after one more act. -/
def follow (i : StreamId) (state : StreamState) : Act → StreamState
  | fetched _ _ (.ok j) => if j = i then .opened else state
  | shut j (.ok ()) => if j = i then .closed else state
  | shut j (.error _) => if j = i ∧ state = .opened then .stuck else state
  | _ => state

end Act

/-- How a stream stands after all that happened. -/
def stateAfter (acts : List Act) (i : StreamId) : StreamState := acts.foldl (Act.follow i) .closed

/-! ## 1. Open and closed -/

section StateAfter

variable {acts added : List Act} {act : Act} {i : StreamId}

@[simp] theorem stateAfter_nil (i : StreamId) : stateAfter [] i = .closed := rfl

@[simp] theorem stateAfter_concat (acts : List Act) (act : Act) (i : StreamId) :
    stateAfter (acts ++ [act]) i = act.follow i (stateAfter acts i) := by
  simp [stateAfter]

/-- A stream is open and nobody tried to close it exactly if it was just opened, or was so before
    and is left alone. -/
theorem Act.follow_eq_opened_iff {state : StreamState} :
    act.follow i state = .opened ↔
      act.opens? = some i ∨ state = .opened ∧ ∀ outcome, act ≠ .shut i outcome := by
  cases act with
  | fetched side name outcome =>
    cases outcome with
    | error fault => simp [Act.follow, Act.opens?]
    | ok j =>
      by_cases hj : j = i <;> simp [Act.follow, Act.opens?, hj]
  | shut j outcome =>
    by_cases hj : j = i
    · -- whoever tries to close a stream has it closed or stuck
      cases outcome <;> simp [Act.follow, Act.opens?, hj]
      split <;> simp_all
    · cases outcome <;> simp [Act.follow, Act.opens?, hj]
  | read | stored | released | handed => simp [Act.follow, Act.opens?]

theorem Act.stuck_of_follow {state : StreamState} (h : act.follow i state = .stuck) :
    state = .stuck ∨ ∃ fault, act = .shut i (.error fault) := by
  cases act with
  | fetched side name outcome =>
    cases outcome with
    | error fault => exact .inl h
    | ok j =>
      simp only [Act.follow] at h
      split at h
      · cases h
      · exact .inl h
  | shut j outcome =>
    cases outcome with
    | error fault =>
      simp only [Act.follow] at h
      split at h
      next hj => exact .inr ⟨fault, by rw [hj.1]⟩
      next => exact .inl h
    | ok =>
      simp only [Act.follow] at h
      split at h
      · cases h
      · exact .inl h
  | read | stored | released | handed => exact .inl h

theorem exists_failed_of_stuck (h : stateAfter acts i = .stuck) :
    ∃ fault, .shut i (.error fault) ∈ acts := by
  induction acts using List.reverseRecOn with
  | nil => cases h
  | append_singleton acts act ih =>
    rw [stateAfter_concat] at h
    rcases Act.stuck_of_follow h with h | ⟨fault, rfl⟩
    · obtain ⟨fault, hfault⟩ := ih h
      exact ⟨fault, List.mem_append_left _ hfault⟩
    · exact ⟨fault, by simp⟩

theorem StreamState.opened_or_stuck {state : StreamState} (h : state ≠ .closed) :
    state = .opened ∨ state = .stuck := by
  cases state with
  | closed => exact absurd rfl h
  | opened => exact .inl rfl
  | stuck => exact .inr rfl

/-- What is open now and was not before was opened in between. -/
theorem opened_append_iff (hacts : stateAfter acts i ≠ .opened) :
    stateAfter (acts ++ added) i = .opened ↔ stateAfter added i = .opened := by
  induction added using List.reverseRecOn with
  | nil => simpa using hacts
  | append_singleton added act ih =>
    rw [← List.append_assoc, stateAfter_concat, stateAfter_concat, Act.follow_eq_opened_iff,
      Act.follow_eq_opened_iff, ih]

end StateAfter

/-! ## 2. Taking turns -/

/-- Streams are opened one after the other: `held` is the one that was opened and not given up
    since. It is given up by closing it, whatever comes of that. -/
inductive Turns : List Act → Option StreamId → Prop
  | start : Turns [] none
  | opened {acts : List Act} {act : Act} {i : StreamId} (h : Turns acts none)
      (hact : act.opens? = some i) : Turns (acts ++ [act]) (some i)
  | dropped {acts : List Act} {i : StreamId} (h : Turns acts (some i))
      (outcome : Except Fault Unit) : Turns (acts ++ [.shut i outcome]) none
  | other {acts : List Act} {held : Option StreamId} {act : Act} (h : Turns acts held)
      (hact : act.OpensNothing) : Turns (acts ++ [act]) held

namespace Turns

variable {acts added : List Act} {held : Option StreamId} {i j : StreamId}

/-- What nobody tried to close is held. -/
theorem held_of_opened (h : Turns acts held) (hi : stateAfter acts i = .opened) :
    held = some i := by
  induction h with
  | start => cases hi
  | opened _ hact ih =>
    rw [stateAfter_concat, Act.follow_eq_opened_iff] at hi
    rcases hi with hopens | ⟨hbefore, -⟩
    · rwa [hact] at hopens
    · cases ih hbefore
  | dropped _ outcome ih =>
    rw [stateAfter_concat, Act.follow_eq_opened_iff] at hi
    rcases hi with hopens | ⟨hbefore, hshut⟩
    · cases hopens
    · obtain rfl := Option.some.inj (ih hbefore)
      exact absurd rfl (hshut outcome)
  | other _ hact ih =>
    rw [stateAfter_concat, Act.follow_eq_opened_iff] at hi
    rcases hi with hopens | ⟨hbefore, -⟩
    · rw [hact] at hopens
      cases hopens
    · exact ih hbefore

theorem exists_of_prefix (h : Turns acts held) {moment : List Act} (hmoment : moment <+: acts) :
    ∃ held, Turns moment held := by
  induction h with
  | start =>
    rw [List.prefix_nil.mp hmoment]
    exact ⟨none, .start⟩
  | opened h hact ih =>
    rcases List.prefix_concat_iff.mp hmoment with rfl | hmoment
    · exact ⟨_, h.opened hact⟩
    · exact ih hmoment
  | dropped h outcome ih =>
    rcases List.prefix_concat_iff.mp hmoment with rfl | hmoment
    · exact ⟨_, h.dropped outcome⟩
    · exact ih hmoment
  | other h hact ih =>
    rcases List.prefix_concat_iff.mp hmoment with rfl | hmoment
    · exact ⟨_, h.other hact⟩
    · exact ih hmoment

theorem append (h : Turns acts held) (hadded : ∀ act ∈ added, act.OpensNothing) :
    Turns (acts ++ added) held := by
  induction added using List.reverseRecOn with
  | nil => rwa [List.append_nil]
  | append_singleton added act ih =>
    rw [← List.append_assoc]
    exact (ih fun a ha => hadded a (List.mem_append_left _ ha)).other (hadded act (by simp))

theorem of_adds {x y : σ × List Act} (h : Turns x.2 held) (hadds : Adds Act.OpensNothing x y) :
    Turns y.2 held := by
  obtain ⟨added, hacts, hadded⟩ := hadds
  rw [hacts]
  exact h.append hadded

theorem held_of_open (h : Turns acts held) (hclose : ∀ i fault, .shut i (.error fault) ∉ acts)
    (hi : stateAfter acts i ≠ .closed) : held = some i := by
  rcases StreamState.opened_or_stuck hi with hopened | hstuck
  · exact h.held_of_opened hopened
  · obtain ⟨fault, hfault⟩ := exists_failed_of_stuck hstuck
    exact absurd hfault (hclose i fault)

/-- If streams can be closed, at no moment are two of them open. -/
theorem eq_of_open (h : Turns acts held) (hclose : ∀ i fault, .shut i (.error fault) ∉ acts)
    {moment : List Act} (hmoment : moment <+: acts) (hi : stateAfter moment i ≠ .closed)
    (hj : stateAfter moment j ≠ .closed) : i = j := by
  obtain ⟨held, hturns⟩ := h.exists_of_prefix hmoment
  have hnone : ∀ i fault, .shut i (.error fault) ∉ moment :=
    fun i fault hmem => hclose i fault (hmoment.subset hmem)
  exact Option.some.inj ((hturns.held_of_open hnone hi).symm.trans (hturns.held_of_open hnone hj))

end Turns

/-! ## 3. Deliveries -/

namespace Delivery

/-- The stream of the live chunk. -/
def heldStream (d : Delivery) : Option StreamId := d.current.map Chunk.stream

/-- The delivery has no chunk any more, and will have none. -/
structure IsSpent (d : Delivery) : Prop where
  current : d.current = none
  hasNext_eq : d.hasNext = false

theorem isSpent_ofNames_nil : (ofNames []).IsSpent := ⟨rfl, rfl⟩

theorem IsSpent.heldStream {d : Delivery} (h : d.IsSpent) : d.heldStream = none := by
  rw [Delivery.heldStream, h.current, Option.map_none]

variable {d d' : Delivery} {acts added : List Act}

theorem IsSpent.shutting (h : d.IsSpent) : d.shutting = [] := by
  rw [Delivery.shutting, h.current]

theorem turns_shutting (h : Turns acts d.heldStream) : Turns (acts ++ d.shutting) none := by
  unfold heldStream at h
  unfold shutting
  cases hcurrent : d.current with
  | none =>
    rw [hcurrent] at h
    simpa using h
  | some chunk =>
    rw [hcurrent] at h
    exact h.dropped (.ok ())

theorem turns_unshut {chunk : Chunk} (h : Turns acts d.heldStream)
    (hcurrent : d.current = some chunk) (fault : Fault) :
    Turns (acts ++ [.shut chunk.stream (.error fault)]) none := by
  rw [heldStream, hcurrent] at h
  exact h.dropped (.error fault)

theorem Asked.turns {o : Except Fault Chunk} (hlist : Asked d o d' added)
    (h : Turns acts d.heldStream) : Turns (acts ++ added) d'.heldStream := by
  cases hlist with
  | drained => rwa [List.append_nil]
  | unshut _ _ hcurrent => exact turns_unshut h hcurrent _
  | unfetched =>
    rw [← List.append_assoc]
    exact (turns_shutting h).other rfl
  | handed =>
    rw [← List.append_assoc]
    exact (turns_shutting h).opened rfl

theorem Closed.turns {o : Except Fault Unit} (hlist : Closed d o d' added)
    (h : Turns acts d.heldStream) : Turns (acts ++ added) none ∧ d'.heldStream = none := by
  cases hlist with
  | unshut hcurrent => exact ⟨turns_unshut h hcurrent _, rfl⟩
  | failed | ended => exact ⟨turns_shutting h, rfl⟩

theorem Stepped.turns (hstep : Stepped d d' added) (h : Turns acts d.heldStream) :
    Turns (acts ++ added) d'.heldStream := by
  cases hstep with
  | asked hlist => exact hlist.turns h
  | closed hlist =>
    obtain ⟨hturns, hnone⟩ := hlist.turns h
    rwa [hnone]
  | read | shut => exact h.other rfl

theorem turns_of_uses {D : Depots σ} {names : List Text} {w : σ} {x : Delivery × (σ × List Act)}
    (h : Uses D.watched (.ofNames names, (w, [])) x) : Turns x.2.2 x.1.heldStream := by
  induction h with
  | refl => exact .start
  | tail _ huse ih =>
    obtain ⟨added, hacts, hstep⟩ := huse.stepped
    rw [hacts]
    exact hstep.turns ih

theorem Closed.isSpent (hlist : Closed d (.ok ()) d' added) : d'.IsSpent := by
  cases hlist with
  | failed hstage => exact ⟨rfl, hasNext_eq_false_iff.mpr (.inl hstage)⟩
  | ended => exact ⟨rfl, hasNext_eq_false_iff.mpr (.inr rfl)⟩

theorem Closed.of_spent {o : Except Fault Unit} (hlist : Closed d o d' added) (h : d.IsSpent) :
    d'.IsSpent ∧ added = [] := by
  cases hlist with
  | unshut hcurrent =>
    rw [h.current] at hcurrent
    cases hcurrent
  | failed hstage => exact ⟨(Closed.failed hstage).isSpent, h.shutting⟩
  | ended hstage => exact ⟨(Closed.ended hstage).isSpent, h.shutting⟩

/-- A delivery that is spent stays so, and opens nothing. -/
theorem Stepped.of_spent (hstep : Stepped d d' added) (h : d.IsSpent) :
    d'.IsSpent ∧ ∀ act ∈ added, act.OpensNothing := by
  cases hstep with
  | asked hlist =>
    obtain ⟨rfl, rfl⟩ := hlist.of_over h.hasNext_eq
    exact ⟨h, by simp⟩
  | closed hlist =>
    obtain ⟨hspent, rfl⟩ := hlist.of_spent h
    exact ⟨hspent, by simp⟩
  | read | shut => exact ⟨h, by simp [Act.OpensNothing, Act.opens?]⟩

end Delivery

end IndexChain
