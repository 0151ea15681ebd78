import IndexChain.Proofs.Ownership

/-!
# Closing — when it is final

A delivery that has no next chunk never has one again. Closing is meant to bring that about, and
does so if the live chunk can be closed. If it cannot, the delivery goes on from where it was: the
chunk is not live any more, and **the chunk after it can still be asked for**, though the delivery
was closed.

A session closes its live pass when it is ended, whichever way. The session itself counts as over
then and starts no pass any more, but callers keep the passes they have. Those before the live one
were over when it was started, so **everything is over exactly if the live pass is**.
-/

namespace IndexChain

variable {σ : Type}

namespace Act

/-- Whether the remote place was not asked for a resource. -/
def AsksNothing (act : Act) : Prop := act.asked? = none

theorem asked_eq_nil_iff {acts : List Act} : asked acts = [] ↔ ∀ act ∈ acts, act.AsksNothing :=
  List.filterMap_eq_nil_iff

end Act

theorem Adds.asked {x y : σ × List Act} (h : Adds Act.AsksNothing x y) :
    Act.asked y.2 = Act.asked x.2 := by
  obtain ⟨added, hacts, hadded⟩ := h
  rw [hacts, Act.asked_append, Act.asked_eq_nil_iff.mpr hadded, List.append_nil]

/-! ## 1. Deliveries -/

namespace Delivery

variable {D : Depots σ} {x : Delivery × (σ × List Act)} {d d' : Delivery} {added : List Act}

/-- Whatever callers do, there is no next chunk and none is asked for. -/
def IsOver (D : Depots σ) (x : Delivery × (σ × List Act)) : Prop :=
  ∀ y, Uses D.watched x y → y.1.hasNext = false ∧ Act.asked y.2.2 = Act.asked x.2.2

theorem isOver_iff : IsOver D x ↔ x.1.hasNext = false := by
  constructor
  · intro h
    exact (h x .refl).1
  · intro hover y huses
    exact huses.of_over hover

/-- A delivery that could not be closed goes on from where it was. -/
theorem Closed.hasNext_eq_false_iff {o : Except Fault Unit} (h : Closed d o d' added) :
    d'.hasNext = false ↔ o = .ok () ∨ d.hasNext = false := by
  cases o with
  | ok => simp [h.isSpent.hasNext_eq]
  | error fault =>
    cases h with
    | unshut => simp [hasNext]

theorem Closed.current_eq_none {o : Except Fault Unit} (h : Closed d o d' added) :
    d'.current = none := by
  cases h <;> rfl

/-- Where no chunk is to be closed first, the next one is asked for. -/
theorem exists_asked_of_hasNext (h : x.1.hasNext = true) (hcurrent : x.1.current = none) :
    ∃ name, Act.asked (next D.watched x).2.2.2 = Act.asked x.2.2 ++ [name] := by
  obtain ⟨added, hacts, hlist⟩ := next_asked D x
  generalize (next D.watched x).1 = o, (next D.watched x).2.1 = d at hlist
  have hadded : ∃ name, Act.asked added = [name] := by
    -- of the ways in which a step can go, those remain that got as far as to ask
    cases hlist with
    | drained hover =>
      rw [h] at hover
      cases hover
    | unshut _ _ hlive =>
      rw [hcurrent] at hlive
      cases hlive
    | @unfetched name | @handed name => exact ⟨name, by simp [asked_shutting]⟩
  obtain ⟨name, hname⟩ := hadded
  exact ⟨name, by rw [hacts, Act.asked_append, hname]⟩

end Delivery

/-! ## 2. Sessions -/

namespace Session

open Delivery

variable {D : Depots σ} {x : Session × (σ × List Act)} {s : Session} {i : Nat}

/-- Whatever callers do, no pass has a next chunk and none is asked for. -/
def IsOver (D : Depots σ) (x : Session × (σ × List Act)) : Prop :=
  ∀ ends y, Course D.watched x ends y →
    (∀ d ∈ y.1.passes, d.hasNext = false) ∧ Act.asked y.2.2 = Act.asked x.2.2

theorem forall_passes_iff :
    (∀ d ∈ s.passes, d.hasNext = false) ↔ ∀ k, (s.passAt k).hasNext = false := by
  constructor
  · intro h k
    unfold passAt
    cases hk : s.passes[k]? with
    | none => rfl
    | some d => exact h d (List.mem_of_getElem? hk)
  · intro h d hd
    obtain ⟨k, hk⟩ := List.mem_iff_getElem?.mp hd
    simpa [passAt, hk] using h k

/-- In a session that has ended it is enough that no pass has a next chunk now. -/
theorem isOver_of_passes (hclosed : x.1.closed = true) (hx : ∀ k, (x.1.passAt k).hasNext = false) :
    IsOver D x := by
  intro ends y hcourse
  have hkeeps : ∀ {d d' : Delivery} {added : List Act}, Stepped d d' added → d.hasNext = false →
      d'.hasNext = false ∧ ∀ act ∈ added, act.AsksNothing := by
    intro d d' added hstep hover
    obtain ⟨hover, hnone⟩ := hstep.of_over hover
    exact ⟨hover, Act.asked_eq_nil_iff.mp hnone⟩
  obtain ⟨hy, hadds⟩ := keeps_of_course (P := fun d => d.hasNext = false) hkeeps hcourse hclosed hx
  exact ⟨forall_passes_iff.mpr hy, hadds.asked⟩

theorem passes_closeLive (hlive : x.1.live = some i) :
    (closeLive D.watched x).2.1.passes =
      (x.1.setPass i (Delivery.close D.watched (x.1.passAt i, x.2)).2.1).passes := by
  obtain ⟨s, x⟩ := x
  have hlive : s.live = some i := hlive
  simp only [closeLive, hlive, onPass_eq]
  rcases Delivery.close D.watched (s.passAt i, x) with ⟨fault | ⟨⟩, d, y⟩ <;> rfl

/-- Closing the live pass changes no other. -/
theorem passAt_closeLive (hlt : i < x.1.passes.length) (hlive : x.1.live = some i) (k : Nat) :
    (closeLive D.watched x).2.1.passAt k =
      if k = i then (Delivery.close D.watched (x.1.passAt i, x.2)).2.1 else x.1.passAt k := by
  have hpass : (closeLive D.watched x).2.1.passAt k =
      (x.1.setPass i (Delivery.close D.watched (x.1.passAt i, x.2)).2.1).passAt k := by
    unfold passAt
    rw [passes_closeLive hlive]
    rfl
  rw [hpass]
  split
  next hk =>
    subst hk
    exact passAt_setPass_self hlt _
  next hk => exact passAt_setPass_of_ne hk _

/-- Ending a session asks for nothing. -/
theorem Ending.asked_run (e : Ending) (hopen : x.1.closed = false) :
    Act.asked (e.run D.watched x).2.2.2 = Act.asked x.2.2 := by
  have hends : D.watched.EndsWithin (Adds Act.AsksNothing) :=
    endsWithin_adds D (fun _ _ _ => rfl) fun _ _ => rfl
  have hshut : Act.asked (x.1.liveDelivery.shutCurrent D.watched x.2).2.2 = Act.asked x.2.2 := by
    obtain ⟨added, hacts, hlist⟩ := close_closed D (x.1.liveDelivery, x.2)
    rw [Delivery.close_eq] at hacts
    rw [hacts, Act.asked_append, hlist.asked_eq, List.append_nil]
  rw [e.run_eq hopen]
  exact (e.onPlaces_within hends x.1 x.2).1.asked.trans hshut

/-- Once a session was ended everything is over, unless its live pass has a next chunk and could not
    be closed. -/
theorem Ending.isOver_run_iff (e : Ending) (h : Orderly x.1 x.2.2) (hopen : x.1.closed = false) :
    IsOver D (e.run D.watched x).2 ↔
      (x.1.liveDelivery.shutCurrent D.watched x.2).1 = .ok () ∨
      x.1.liveDelivery.hasNext = false := by
  have hclosed := e.closed_run (D := D.watched) x
  have hpasses : (e.run D.watched x).2.1 = (closeLive D.watched (x.1.ended, x.2)).2.1 := by
    rw [e.run_eq hopen]
  cases hlive : x.1.live with
  | none =>
    -- nothing is closed, and nothing has a next chunk
    have hleft : closeLive D.watched (x.1.ended, x.2) = (.ok (), x.1.ended, x.2) := by
      have hended : x.1.ended.live = none := hlive
      simp only [closeLive, hended]
    have hover : IsOver D (e.run D.watched x).2 := by
      refine isOver_of_passes hclosed fun k => ?_
      rw [hpasses, hleft]
      exact (h.isIdle_of_none hlive k).hasNext_eq
    rw [liveDelivery_of_none hlive]
    exact iff_of_true hover (.inr rfl)
  | some i =>
    -- the live pass is replaced by what closing it leaves, and any other pass is spent
    have hlt := h.lt_of_live hlive
    obtain ⟨added, -, hlist⟩ := close_closed D (x.1.passAt i, x.2)
    have hpassAt : ∀ k, (e.run D.watched x).2.1.passAt k =
        if k = i then (Delivery.close D.watched (x.1.passAt i, x.2)).2.1 else x.1.passAt k := by
      intro k
      rw [hpasses]
      exact passAt_closeLive (x := (x.1.ended, x.2)) hlt hlive k
    have hshut : (Delivery.close D.watched (x.1.passAt i, x.2)).1 =
        ((x.1.passAt i).shutCurrent D.watched x.2).1 := by
      rw [Delivery.close_eq]
    rw [liveDelivery_of_live hlive, ← hshut, ← hlist.hasNext_eq_false_iff]
    constructor
    · intro hover
      have hi := forall_passes_iff.mp (hover [] _ .start).1 i
      rwa [hpassAt, if_pos rfl] at hi
    · intro hover
      refine isOver_of_passes hclosed fun k => ?_
      rw [hpassAt]
      split
      · exact hover
      next hk =>
        refine (h.spent k ?_).hasNext_eq
        rw [hlive]
        exact fun heq => hk (Option.some.inj heq).symm

end Session

/-! ## 3. Both -/

open Session in
/-- **Closing is final unless the live chunk cannot be closed.** Closing a delivery, in whatever
    state it is, and the first ending of a session ask for no chunk. What comes after them:

    * a delivery is over exactly if it could be closed, or had no next chunk anyway. Otherwise it
      has a next chunk, and asks for that as soon as it is told to;
    * of a session all passes are over exactly if its live chunk could be closed, or its live pass
      had no next chunk anyway. An ending that succeeds has closed the live chunk. -/
theorem over_after_close (D : Depots σ) :
    (∀ x o y, Delivery.close D.watched x = (o, y) →
      Act.asked y.2.2 = Act.asked x.2.2 ∧
      (Delivery.IsOver D y ↔ o = .ok () ∨ x.1.hasNext = false) ∧
      (¬Delivery.IsOver D y → y.1.hasNext = true ∧
        ∃ name, Act.asked (Delivery.next D.watched y).2.2.2 = Act.asked y.2.2 ++ [name])) ∧
    ∀ hasCopy comment w s u x, establish D.watched hasCopy comment (w, []) = (.ok s, u) →
      Course D.watched (s, u) [] x → ∀ e : Ending,
      Act.asked (e.run D.watched x).2.2.2 = Act.asked x.2.2 ∧
      (IsOver D (e.run D.watched x).2 ↔
        (x.1.liveDelivery.shutCurrent D.watched x.2).1 = .ok () ∨
        x.1.liveDelivery.hasNext = false) ∧
      ((e.run D.watched x).1 = .ok () →
        (x.1.liveDelivery.shutCurrent D.watched x.2).1 = .ok ()) := by
  constructor
  · intro x o y hclose
    obtain ⟨added, hacts, hlist⟩ := Delivery.close_closed D x
    rw [hclose] at hacts hlist
    refine ⟨?_, Delivery.isOver_iff.trans hlist.hasNext_eq_false_iff, fun hnot => ?_⟩
    · rw [hacts, Act.asked_append, hlist.asked_eq, List.append_nil]
    · rw [Delivery.isOver_iff, Bool.not_eq_false] at hnot
      exact ⟨hnot, Delivery.exists_asked_of_hasNext hnot hlist.current_eq_none⟩
  · intro hasCopy comment w s u x hs h e
    have horderly := orderly_of_course h (orderly_of_establish hs)
    have hopen : x.1.closed = false :=
      (goesOn_of_uses D.watched.stayWithin_true (uses_of_course_nil h)).closed.trans
        (establish_eq_ok_iff.mp hs).isFresh.closed
    refine ⟨e.asked_run hopen, e.isOver_run_iff horderly hopen, fun hok => ?_⟩
    rw [e.run_eq hopen] at hok
    exact (e.onPlaces_within (endsWithin_opensNothing D) x.1 x.2).2 hok

/-! ### Two rehearsals -/

open Session in
/-- A delivery of two chunks is closed after the first one, and a session is closed while it has a
    pass that was asked for nothing yet. Nothing is asked for any more. -/
theorem over_after_close_jamming :
    (∃ x y,
      Delivery.Uses Rehearsal.depots.watched (.ofNames ["b", "a"], (Rehearsal.jamming, [])) x ∧
      x.1.hasNext = true ∧
      Delivery.close Rehearsal.depots.watched x = (.ok (), y) ∧
      Delivery.IsOver Rehearsal.depots y) ∧
    ∃ s u x, establish Rehearsal.depots.watched true none (Rehearsal.offering [], []) = (.ok s, u) ∧
      Course Rehearsal.depots.watched (s, u) [] x ∧ x.1.liveDelivery.hasNext = true ∧
      IsOver Rehearsal.depots (Session.close Rehearsal.depots.watched x).2 := by
  obtain ⟨hdelivery, hsession⟩ := over_after_close Rehearsal.depots
  constructor
  · have huses : Delivery.Uses Rehearsal.depots.watched
      (.ofNames ["b", "a"], (Rehearsal.jamming, [])) _ := .single (.next _)
    have hclose : Delivery.close Rehearsal.depots.watched
        (Delivery.next Rehearsal.depots.watched (.ofNames ["b", "a"], (Rehearsal.jamming, []))).2 =
        (.ok (), _) := Prod.ext rfl rfl
    obtain ⟨-, hover, -⟩ := hdelivery _ _ _ hclose
    exact ⟨_, _, huses, by decide +kernel, hclose, hover.mpr (.inl rfl)⟩
  have hcheck : (establish Rehearsal.depots.watched true none).passes (fun s u =>
      let x := (iterate Rehearsal.depots.watched (s, u)).2
      x.1.liveDelivery.hasNext && x.1.liveDelivery.current.isNone) (Rehearsal.offering [], []) =
        true := by
    decide +kernel
  obtain ⟨s, u, hs, hcheck⟩ := Run.exists_of_passes hcheck
  simp only [Bool.and_eq_true, Option.isNone_iff_eq_none] at hcheck
  obtain ⟨hnext, hcurrent⟩ := hcheck
  have hcourse : Course Rehearsal.depots.watched (s, u) [] _ := .use .start (.iterate _)
  obtain ⟨-, hover, -⟩ := hsession _ _ _ _ _ _ hs hcourse .close
  refine ⟨s, u, _, hs, hcourse, hnext, hover.mpr (.inl ?_)⟩
  simp [Delivery.shutCurrent, hcurrent]

open Delivery in
/-- **A chunk is opened after the delivery was closed.** The first of two chunks could not be
closed. -/
theorem asked_after_failed_close :
    ∃ x fault y, Uses Rehearsal.depots.watched (.ofNames ["a", "b"], (Rehearsal.jamming, [])) x ∧
      close Rehearsal.depots.watched x = (.error fault, y) ∧ y.1.hasNext = true ∧
      (next Rehearsal.depots.watched y).2.1.current.map Chunk.name = some "b" := by
  refine ⟨_, _, _, .single (.next _), Prod.ext ?_ rfl, ?_, ?_⟩
  · rfl
  · decide +kernel
  · decide +kernel

end IndexChain
