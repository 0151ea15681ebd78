import IndexChain.Proofs.Streams

/-!
# Ownership — who will close a stream

A session hands out passes, and callers keep them all. Only the newest may hold a stream, and only
as long as the session will close it (`Orderly`); every other pass is spent for good. So the streams
that a whole session opens take turns, whichever passes they were opened by.

* **If streams can be closed**, at most one is open at any moment, and none once the session has
  ended.
* A stream that could not be closed is held by nobody afterwards, so nobody will close it again.
  **When a delivery or a session has been closed, the open streams are exactly those that were given
  up in this way**, and those opened by a pass that the session could not close.
-/

namespace IndexChain

variable {σ : Type}

/-! ## 1. Passes -/

namespace Session

open Delivery

/-- The pass at a place; where there is none, one that is spent. -/
def passAt (s : Session) (i : Nat) : Delivery := s.passes[i]?.getD (.ofNames [])

/-- The session with one of its passes changed. -/
def setPass (s : Session) (i : Nat) (d : Delivery) : Session :=
  { s with passes := s.passes.set i d }

variable {s : Session} {d : Delivery} {i k : Nat} {acts added : List Act}

theorem liveDelivery_of_live (h : s.live = some i) : s.liveDelivery = s.passAt i := by
  rw [liveDelivery, h]
  rfl

theorem liveDelivery_of_none (h : s.live = none) : s.liveDelivery = .ofNames [] := by
  rw [liveDelivery, h]
  rfl

theorem passAt_setPass_self (h : i < s.passes.length) (d : Delivery) :
    (s.setPass i d).passAt i = d := by
  simp [passAt, setPass, h]

theorem passAt_setPass_of_ne (h : k ≠ i) (d : Delivery) :
    (s.setPass i d).passAt k = s.passAt k := by
  simp [passAt, setPass, h.symm]

theorem liveDelivery_setPass_self (hlive : s.live = some i) (h : i < s.passes.length)
    (d : Delivery) : (s.setPass i d).liveDelivery = d := by
  have hlive' : (s.setPass i d).live = some i := hlive
  rw [liveDelivery_of_live hlive', passAt_setPass_self h]

theorem liveDelivery_setPass_of_ne (hlive : s.live ≠ some i) (d : Delivery) :
    (s.setPass i d).liveDelivery = s.liveDelivery := by
  cases hk : s.live with
  | none =>
    have hk' : (s.setPass i d).live = none := hk
    rw [liveDelivery_of_none hk', liveDelivery_of_none hk]
  | some k =>
    have hk' : (s.setPass i d).live = some k := hk
    rw [liveDelivery_of_live hk', liveDelivery_of_live hk, passAt_setPass_of_ne]
    rintro rfl
    exact hlive hk

/-- What holds of a pass and of what another pass is changed to holds of the pass afterwards, be it
    the same pass or not. -/
theorem holds_passAt_setPass {P : Delivery → Prop} (hd : P d) (h : P (s.passAt k)) :
    P ((s.setPass i d).passAt k) := by
  by_cases hk : k = i
  · subst hk
    by_cases hlt : k < s.passes.length
    · rwa [passAt_setPass_self hlt]
    · -- there is no such pass, and none comes up
      have hsame : s.setPass k d = s := by
        simp [setPass, List.set_eq_of_length_le (Nat.le_of_not_lt hlt)]
      rwa [hsame]
  · rwa [passAt_setPass_of_ne hk]

/-- No pass will hand out a chunk any more. -/
def IsIdle (s : Session) : Prop := ∀ i, (s.passAt i).IsSpent

/-- Only the newest pass may hold a stream or hand out chunks, and only while the session will close
it. -/
structure Orderly (s : Session) (acts : List Act) : Prop where
  turns : Turns acts s.liveDelivery.heldStream
  newest : ∀ i, s.live = some i → i + 1 = s.passes.length
  spent : ∀ i, s.live ≠ some i → (s.passAt i).IsSpent

namespace Orderly

theorem lt_of_live (h : Orderly s acts) (hlive : s.live = some i) : i < s.passes.length := by
  have hnewest := h.newest i hlive
  omega

theorem isIdle_of_none (h : Orderly s acts) (hlive : s.live = none) : s.IsIdle := by
  intro i
  exact h.spent i (by simp [hlive])

theorem of_adds {x y : σ × List Act} (h : Orderly s x.2) (hadds : Adds Act.OpensNothing x y) :
    Orderly s y.2 :=
  ⟨h.turns.of_adds hadds, h.newest, h.spent⟩

/-- Whichever pass a step is on, the session stays orderly. -/
theorem setPass (h : Orderly s acts) (hstep : Stepped (s.passAt i) d added) :
    Orderly (s.setPass i d) (acts ++ added) := by
  have hnewest : ∀ k, (s.setPass i d).live = some k → k + 1 = (s.setPass i d).passes.length := by
    intro k hk
    have hlength : (s.setPass i d).passes.length = s.passes.length := by
      simp [Session.setPass]
    rw [hlength]
    exact h.newest k hk
  by_cases hlive : s.live = some i
  · -- the newest pass takes its turn
    refine ⟨?_, hnewest, fun k hk => ?_⟩
    · rw [liveDelivery_setPass_self hlive (h.lt_of_live hlive)]
      apply hstep.turns
      rw [← liveDelivery_of_live hlive]
      exact h.turns
    · rw [passAt_setPass_of_ne]
      · exact h.spent k hk
      · rintro rfl
        exact hk hlive
  · -- a pass of before opens nothing
    obtain ⟨hspent, hadded⟩ := hstep.of_spent (h.spent i hlive)
    refine ⟨?_, hnewest, fun k hk => holds_passAt_setPass hspent (h.spent k hk)⟩
    rw [liveDelivery_setPass_of_ne hlive]
    exact h.turns.append hadded

end Orderly

theorem orderly_push (hturns : Turns acts none) (hidle : s.IsIdle) (names : List Text) :
    Orderly
      { s with passes := s.passes ++ [.ofNames names], live := some s.passes.length } acts := by
  refine ⟨?_, ?_, fun k hk => ?_⟩
  · rw [liveDelivery_of_live rfl]
    simpa [passAt, ofNames, heldStream] using hturns
  · rintro _ ⟨⟩
    simp
  · have hk : k ≠ s.passes.length := fun heq => hk (congrArg some heq.symm)
    have hold := hidle k
    unfold passAt at hold ⊢
    rcases Nat.lt_or_gt_of_ne hk with hlt | hgt
    · rwa [List.getElem?_append_left hlt]
    · rw [List.getElem?_eq_none (by simpa using Nat.succ_le_of_lt hgt)]
      exact isSpent_ofNames_nil

/-- The live pass was closed, and nothing is held any more. Either all passes are over, or a stream
    could not be closed. -/
structure Parted (o : Except Fault Unit) (s : Session) (acts : List Act) : Prop where
  orderly : Orderly s acts
  held : s.liveDelivery.heldStream = none
  outcome : o = .ok () ∧ s.IsIdle ∨ ∃ i fault, o = .error fault ∧ .shut i (.error fault) ∈ acts

theorem Parted.turns {o : Except Fault Unit} (h : Parted o s acts) : Turns acts none := by
  have hturns := h.orderly.turns
  rwa [h.held] at hturns

theorem Parted.isIdle (h : Parted (.ok ()) s acts) : s.IsIdle := by
  rcases h.outcome with ⟨-, hidle⟩ | ⟨_, _, herror, -⟩
  · exact hidle
  · cases herror

theorem parted_setPass {o : Except Fault Unit} (h : Orderly s acts) (hlive : s.live = some i)
    (hlist : Closed (s.passAt i) o d added) : Parted o (s.setPass i d) (acts ++ added) := by
  have hself := liveDelivery_setPass_self hlive (h.lt_of_live hlive) d
  refine ⟨h.setPass (.closed hlist), ?_, ?_⟩
  · have hturns := h.turns
    rw [liveDelivery_of_live hlive] at hturns
    rw [hself]
    exact (hlist.turns hturns).2
  · cases o with
    | error fault =>
      cases hlist with
      | unshut => exact .inr ⟨_, fault, rfl, List.mem_append_right _ (List.mem_singleton.mpr rfl)⟩
    | ok =>
      refine .inl ⟨rfl, fun k => ?_⟩
      by_cases hk : k = i
      · subst hk
        rw [passAt_setPass_self (h.lt_of_live hlive)]
        exact hlist.isSpent
      · rw [passAt_setPass_of_ne hk]
        apply h.spent
        rw [hlive]
        exact fun heq => hk (Option.some.inj heq).symm

theorem parted_of_none (h : Orderly s acts) (hlive : s.live = none) : Parted (.ok ()) s acts := by
  refine ⟨h, ?_, .inl ⟨rfl, h.isIdle_of_none hlive⟩⟩
  rw [liveDelivery_of_none hlive]
  rfl

/-! ## 2. Steps -/

section Steps

variable {D : Depots σ} {x y : Session × (σ × List Act)} {o : Except Fault Unit}

theorem onPass_eq {α : Type} (i : Nat) (step : Run (Delivery × σ) α) (x : Session × σ) :
    onPass i step x = ((step (x.1.passAt i, x.2)).1, x.1.setPass i (step (x.1.passAt i, x.2)).2.1,
      (step (x.1.passAt i, x.2)).2.2) := rfl

theorem onPass_orderly {α : Type} {step : Run (Delivery × (σ × List Act)) α}
    (hstep : ∀ x, ∃ added, (step x).2.2.2 = x.2.2 ++ added ∧ Stepped x.1 (step x).2.1 added)
    (i : Nat) (h : Orderly x.1 x.2.2) :
    Orderly (onPass i step x).2.1 (onPass i step x).2.2.2 := by
  obtain ⟨added, hacts, hlist⟩ := hstep (x.1.passAt i, x.2)
  rw [onPass_eq, hacts]
  exact h.setPass hlist

theorem closePass_parted (h : Orderly x.1 x.2.2) {i : Nat} (hlive : x.1.live = some i)
    (hclose : onPass i (Delivery.close D.watched) x = (o, y)) : Parted o y.1 y.2.2 := by
  obtain ⟨added, hacts, hlist⟩ := close_closed D (x.1.passAt i, x.2)
  rw [onPass_eq] at hclose
  obtain ⟨rfl, rfl⟩ := Prod.mk.inj hclose
  rw [hacts]
  exact parted_setPass h hlive hlist

theorem iterate_orderly (h : Orderly x.1 x.2.2) :
    Orderly (iterate D.watched x).2.1 (iterate D.watched x).2.2.2 := by
  obtain ⟨s, x⟩ := x
  unfold iterate
  by_cases hclosed : s.closed = true
  · simpa only [hclosed, if_true] using h
  simp only [hclosed]
  cases hlive : s.live with
  | none =>
    have hturns := h.turns
    rw [liveDelivery_of_none hlive] at hturns
    exact orderly_push hturns (h.isIdle_of_none hlive) s.plan.chunkNames
  | some i =>
    rcases hclose : onPass i (Delivery.close D.watched) (s, x) with ⟨fault | ⟨⟩, y⟩
    all_goals
      have hparted := closePass_parted h hlive hclose
      simp only [hclose]
    · exact hparted.orderly
    · exact orderly_push hparted.turns hparted.isIdle y.1.plan.chunkNames

theorem Use.orderly (huse : Use D.watched x y) (h : Orderly x.1 x.2.2) : Orderly y.1 y.2.2 := by
  cases huse with
  | iterate => exact iterate_orderly h
  | next i => exact onPass_orderly (fun x => (Delivery.Use.next x).stepped) i h
  | closePass i => exact onPass_orderly (fun x => (Delivery.Use.close x).stepped) i h
  | read | shut => exact ⟨h.turns.other rfl, h.newest, h.spent⟩

theorem closeLive_parted (h : Orderly x.1 x.2.2) (hclose : closeLive D.watched x = (o, y)) :
    Parted o y.1 y.2.2 := by
  obtain ⟨s, x⟩ := x
  unfold closeLive at hclose
  cases hlive : s.live with
  | none =>
    simp only [hlive, Prod.mk.injEq] at hclose
    obtain ⟨rfl, rfl⟩ := hclose
    exact parted_of_none h hlive
  | some i =>
    simp only [hlive] at hclose
    rcases hpass : onPass i (Delivery.close D.watched) (s, x) with ⟨fault | ⟨⟩, z⟩
    all_goals
      have hparted := closePass_parted h hlive hpass
      simp only [hpass, Prod.mk.injEq] at hclose
      obtain ⟨rfl, rfl⟩ := hclose
    · exact hparted
    · have hidle := hparted.isIdle
      refine ⟨⟨hparted.turns, ?_, fun k _ => hidle k⟩, rfl, .inl ⟨rfl, hidle⟩⟩
      intro _ hnone
      cases hnone

theorem Parted.of_adds {s : Session} {u v : σ × List Act} (h : Parted o s u.2)
    (hadds : Adds Act.OpensNothing u v) : Parted o s v.2 := by
  refine ⟨h.orderly.of_adds hadds, h.held, h.outcome.imp_right ?_⟩
  rintro ⟨i, fault, ho, hmem⟩
  obtain ⟨added, hacts, -⟩ := hadds
  rw [hacts]
  exact ⟨i, fault, ho, List.mem_append_left _ hmem⟩

theorem endsWithin_opensNothing (D : Depots σ) : D.watched.EndsWithin (Adds Act.OpensNothing) :=
  endsWithin_adds D (fun _ _ _ => rfl) fun _ _ => rfl

/-- However a session is ended, its live pass is closed, and nothing is opened after that. -/
theorem Ending.parted_run (e : Ending) (h : Orderly x.1 x.2.2) (hopen : x.1.closed = false) :
    Parted (x.1.liveDelivery.shutCurrent D.watched x.2).1 (e.run D.watched x).2.1
      (e.run D.watched x).2.2.2 := by
  obtain ⟨s', hclose, -⟩ := closeLive_eq (D := D.watched) x.1.ended x.2
  have hended : Orderly x.1.ended x.2.2 := ⟨h.turns, h.newest, h.spent⟩
  have hparted := closeLive_parted (x := (x.1.ended, x.2)) hended hclose
  rw [e.run_eq hopen, hclose]
  exact hparted.of_adds (e.onPlaces_within (endsWithin_opensNothing D) x.1 x.2).1

/-! ### Opening -/

theorem loadManifest_turns {stream : StreamId} {u : σ × List Act} (h : Turns u.2 (some stream)) :
    Turns (loadManifest D.watched stream u).2.2 none := by
  refine Run.holds_bind (P := fun u : σ × List Act => Turns u.2 none) ?_ fun content v hv => ?_
  · unfold Depots.readAndShut
    rw [Run.ensure_snd]
    have hread : Turns (D.watched.read stream none u).2.2 (some stream) := h.other rfl
    exact hread.dropped _
  · rw [Run.ofExcept_apply]
    exact hv

theorem loadCopy_turns {u : σ × List Act} (h : Turns u.2 none) :
    Turns (loadCopy D.watched u).2.2 none := by
  unfold loadCopy
  rcases hfetch : D.watched.fetch .copy Manifest.resourceName u with ⟨fault | stream, v⟩
  all_goals
    have hacts := Run.acts_of_watched hfetch
  · have hv : Turns v.2 none := by
      rw [hacts]
      exact h.other rfl
    simp only
    split
    · exact hv
    · exact hv
  · have hv : Turns v.2 (some stream) := by
      rw [hacts]
      exact h.opened rfl
    exact Run.holds_bind (P := fun u : σ × List Act => Turns u.2 none) (loadManifest_turns hv)
      fun _ _ hw => hw

theorem settle_acts (hasCopy : Bool) (comment : Option Text) (published : Manifest)
    (copy : Option Manifest) (u : σ × List Act) :
    (settle D.watched hasCopy comment published copy u).2.2 = u.2 := by
  unfold settle
  split <;> rfl

/-- Whether there is a session then or not, nothing that was opened for it is held. -/
theorem establish_turns {u : σ × List Act} (h : Turns u.2 none) (hasCopy : Bool)
    (comment : Option Text) : Turns (establish D.watched hasCopy comment u).2.2 none := by
  rw [establish_eq]
  rcases hfetch : D.watched.fetch .remote Manifest.resourceName u with ⟨fault | stream, v⟩
  all_goals
    have hacts := Run.acts_of_watched hfetch
  · rw [Run.bind_of_error hfetch]
    simp only
    rw [hacts]
    exact h.other rfl
  · rw [Run.bind_of_ok hfetch]
    have hv : Turns v.2 (some stream) := by
      rw [hacts]
      exact h.opened rfl
    refine Run.holds_bind (P := fun u : σ × List Act => Turns u.2 none) (loadManifest_turns hv) ?_
    intro published v hv
    refine Run.holds_bind (P := fun u : σ × List Act => Turns u.2 none) ?_ fun copy t ht => ?_
    · cases hasCopy
      · exact hv
      · exact loadCopy_turns hv
    · rw [settle_acts]
      exact ht

/-- As long as no stream fails to be closed, opening a session leaves none open, whether it succeeds
    or not. -/
theorem closed_after_establish (D : Depots σ) (hasCopy : Bool) (comment : Option Text) (w : σ)
    (hclose : ∀ i fault, .shut i (.error fault) ∉ (establish D.watched hasCopy comment (w, [])).2.2)
    (i : StreamId) : stateAfter (establish D.watched hasCopy comment (w, [])).2.2 i = .closed := by
  by_contra hi
  cases (establish_turns (D := D) (u := (w, [])) .start hasCopy comment).held_of_open hclose hi

theorem orderly_of_establish {hasCopy : Bool} {comment : Option Text} {w : σ} {u : σ × List Act}
    {s : Session} (h : establish D.watched hasCopy comment (w, []) = (.ok s, u)) :
    Orderly s u.2 := by
  have hfresh := (establish_eq_ok_iff.mp h).isFresh
  have hturns := establish_turns (D := D) (u := (w, [])) .start hasCopy comment
  rw [h] at hturns
  refine ⟨?_, fun i hlive => ?_, fun i _ => ?_⟩
  · rw [liveDelivery_of_none hfresh.live]
    exact hturns
  · rw [hfresh.live] at hlive
    cases hlive
  · unfold passAt
    rw [hfresh.passes]
    exact isSpent_ofNames_nil

/-! ### Courses -/

variable {ends : List (Ending × (Session × (σ × List Act)))} {z : Session × (σ × List Act)}

theorem orderly_of_course (h : Course D.watched x ends z) (hx : Orderly x.1 x.2.2) :
    Orderly z.1 z.2.2 := by
  induction h with
  | start => exact hx
  | use _ huse ih => exact huse.orderly ih
  | @ending _ y _ e ih =>
    by_cases hclosed : y.1.closed = true
    · rw [e.run_of_closed hclosed]
      exact ih
    · exact (e.parted_run ih (Bool.eq_false_iff.mpr hclosed)).orderly

section Kept

variable {P : Delivery → Prop} {Q : Act → Prop}
  (hkeeps : ∀ {d d' : Delivery} {added : List Act}, Stepped d d' added → P d →
    P d' ∧ ∀ act ∈ added, Q act)

include hkeeps

theorem onPass_keeps {α : Type} {step : Run (Delivery × (σ × List Act)) α}
    (hstep : ∀ x, ∃ added, (step x).2.2.2 = x.2.2 ++ added ∧ Stepped x.1 (step x).2.1 added)
    (i : Nat) (hx : ∀ k, P (x.1.passAt k)) :
    (∀ k, P ((onPass i step x).2.1.passAt k)) ∧ Adds Q x.2 (onPass i step x).2.2 := by
  obtain ⟨added, hacts, hlist⟩ := hstep (x.1.passAt i, x.2)
  obtain ⟨hd, hadded⟩ := hkeeps hlist (hx i)
  exact ⟨fun k => holds_passAt_setPass hd (hx k), added, hacts, hadded⟩

/-- In a session that is over, callers keep of the passes what every step keeps of a delivery, and
    no more is added to the history than such steps add. -/
theorem keeps_of_course (h : Course D.watched x ends z) (hclosed : x.1.closed = true)
    (hx : ∀ k, P (x.1.passAt k)) : (∀ k, P (z.1.passAt k)) ∧ Adds Q x.2 z.2 := by
  induction h with
  | start => exact ⟨hx, Adds.refl _⟩
  | @use _ y z hcourse huse ih =>
    obtain ⟨hy, hadds⟩ := ih
    have hover : y.1.closed = true :=
      (goesOn_of_closed D.watched.stayWithin_true hcourse hclosed).closed.trans hclosed
    have hstep : (∀ k, P (z.1.passAt k)) ∧ Adds Q y.2 z.2 := by
      cases huse with
      | iterate =>
        have hleft : iterate D.watched y = (.error isOver, y) := by
          simp [iterate, hover]
        rw [hleft]
        exact ⟨hy, Adds.refl _⟩
      | next i => exact onPass_keeps hkeeps (fun x => (Delivery.Use.next x).stepped) i hy
      | closePass i => exact onPass_keeps hkeeps (fun x => (Delivery.Use.close x).stepped) i hy
      | read i size => exact ⟨hy, _, rfl, (hkeeps (.read i _) (hy 0)).2⟩
      | shut i => exact ⟨hy, _, rfl, (hkeeps (.shut i _) (hy 0)).2⟩
    exact ⟨hstep.1, hadds.trans hstep.2⟩
  | @ending _ y hcourse e ih =>
    have hover : y.1.closed = true :=
      (goesOn_of_closed D.watched.stayWithin_true hcourse hclosed).closed.trans hclosed
    rw [e.run_of_closed hover]
    exact ih

end Kept

/-- A session that is over, as are all its passes, opens nothing any more. -/
theorem opensNothing_of_idle (h : Course D.watched x ends z) (hclosed : x.1.closed = true)
    (hidle : x.1.IsIdle) : z.1.IsIdle ∧ Adds Act.OpensNothing x.2 z.2 :=
  keeps_of_course Stepped.of_spent h hclosed hidle

/-! ## 3. One at a time -/

theorem exists_added_of_closed (h : Course D.watched x ends z) (hclosed : x.1.closed = true) :
    ∃ added, z.2.2 = x.2.2 ++ added := by
  have hD := stayWithin_adds (P := fun _ => True) D (by simp) (by simp) (by simp)
  obtain ⟨added, hacts, -⟩ := (goesOn_of_closed hD h hclosed).related
  exact ⟨added, hacts⟩

theorem IsIdle.liveDelivery {s : Session} (h : s.IsIdle) : s.liveDelivery.IsSpent := by
  cases hlive : s.live with
  | none =>
    rw [liveDelivery_of_none hlive]
    exact isSpent_ofNames_nil
  | some i =>
    rw [liveDelivery_of_live hlive]
    exact h i

theorem parted_of_first {e : Ending} (hx : Orderly x.1 x.2.2) (hopen : x.1.closed = false)
    (h : Course D.watched x ((e, y) :: ends) z) :
    Parted (y.1.liveDelivery.shutCurrent D.watched y.2).1 (e.run D.watched y).2.1
      (e.run D.watched y).2.2.2 ∧ y.1.closed = false ∧
      Course D.watched (e.run D.watched y).2 ends z := by
  obtain ⟨hfirst, hrest⟩ := Course.split (show Course D.watched x ([] ++ (e, y) :: ends) z from h)
  have hclosed : y.1.closed = false :=
    (goesOn_of_uses D.watched.stayWithin_true (uses_of_course_nil hfirst)).closed.trans hopen
  exact ⟨e.parted_run (orderly_of_course hfirst hx) hclosed, hclosed, hrest⟩

theorem Orderly.exists_current {s : Session} {acts : List Act} {i : StreamId} (h : Orderly s acts)
    (hheld : s.liveDelivery.heldStream = some i) :
    ∃ d chunk, s.passes.getLast? = some d ∧ d.current = some chunk ∧ chunk.stream = i := by
  cases hlive : s.live with
  | none =>
    rw [liveDelivery_of_none hlive] at hheld
    cases hheld
  | some k =>
    have hlast : s.passes.length - 1 = k := by
      have hnewest := h.newest k hlive
      omega
    rw [liveDelivery_of_live hlive, heldStream, Option.map_eq_some_iff] at hheld
    obtain ⟨chunk, hcurrent, hstream⟩ := hheld
    refine ⟨s.passAt k, chunk, ?_, hcurrent, hstream⟩
    rw [List.getLast?_eq_getElem?, hlast, passAt, List.getElem?_eq_getElem (h.lt_of_live hlive)]
    rfl

/-- **At most one stream is open.** As long as no stream fails to be closed, whatever is done with a
    session that was opened:

    * at no moment are two streams open;
    * a stream that is open is that of the live chunk of the newest pass;
    * after the first ending no stream is open, and whatever is done then, none is opened any more.

    All that may fail otherwise may fail at any time. -/
theorem one_open_at_a_time {hasCopy : Bool} {comment : Option Text} {w : σ} {s : Session}
    {u : σ × List Act} (hs : establish D.watched hasCopy comment (w, []) = (.ok s, u))
    (h : Course D.watched (s, u) ends z) (hclose : ∀ i fault, .shut i (.error fault) ∉ z.2.2) :
    (∀ moment, moment <+: z.2.2 → ∀ i j, stateAfter moment i ≠ .closed →
      stateAfter moment j ≠ .closed →
      i = j) ∧
    (∀ i, stateAfter z.2.2 i ≠ .closed →
      ∃ d chunk, z.1.passes.getLast? = some d ∧ d.current = some chunk ∧ chunk.stream = i) ∧
    (ends ≠ [] → (∀ i, stateAfter z.2.2 i = .closed) ∧
      ∀ ends' z', Course D.watched z ends' z' → Adds Act.OpensNothing z.2 z'.2) := by
  have hstart := orderly_of_establish hs
  have hz := orderly_of_course h hstart
  refine ⟨fun moment hmoment i j => hz.turns.eq_of_open hclose hmoment, fun i hi => ?_,
    fun hends => ?_⟩
  · exact hz.exists_current (hz.turns.held_of_open hclose hi)
  obtain ⟨⟨e, x⟩, rest, rfl⟩ := List.exists_cons_of_ne_nil hends
  obtain ⟨hparted, -, hrest⟩ := parted_of_first hstart (establish_eq_ok_iff.mp hs).isFresh.closed h
  have hclosed := e.closed_run (D := D.watched) x
  have hidle : (e.run D.watched x).2.1.IsIdle := by
    rcases hparted.outcome with ⟨-, hidle⟩ | ⟨i, fault, -, hfailed⟩
    · exact hidle
    · -- the live chunk would have failed to be closed
      obtain ⟨added, hacts⟩ := exists_added_of_closed hrest hclosed
      refine absurd ?_ (hclose i fault)
      rw [hacts]
      exact List.mem_append_left _ hfailed
  have hover := (opensNothing_of_idle hrest hclosed hidle).1
  refine ⟨fun i => ?_, fun ends' z' hmore => ?_⟩
  · by_contra hi
    have hheld := hz.turns.held_of_open hclose hi
    rw [hover.liveDelivery.heldStream] at hheld
    cases hheld
  · exact (opensNothing_of_idle hmore (closed_of_course h hends) hover).2

end Steps

end Session

/-! ### A rehearsal -/

open Session in
/-- A session that is finished while its one chunk is open. -/
theorem one_open_at_a_time_offering :
    ∃ s u x i, establish Rehearsal.depots.watched false none (Rehearsal.offering [], []) =
      (.ok s, u) ∧
      Course Rehearsal.depots.watched (s, u) [] x ∧ stateAfter x.2.2 i = .opened ∧
      (∃ d chunk, x.1.passes.getLast? = some d ∧ d.current = some chunk ∧ chunk.stream = i) ∧
      ∀ i, stateAfter (Session.finish Rehearsal.depots.watched .earliest x).2.2.2 i = .closed := by
  have hcheck : (establish Rehearsal.depots.watched false none).passes (fun s u =>
      let x := (next Rehearsal.depots.watched 0 (iterate Rehearsal.depots.watched (s, u)).2).2
      let z := (Session.finish Rehearsal.depots.watched .earliest x).2
      stateAfter x.2.2 1 = .opened && !x.2.2.any Act.hasFailed && !z.2.2.any Act.hasFailed)
      (Rehearsal.offering [], []) = true := by
    decide +kernel
  obtain ⟨s, u, hs, hcheck⟩ := Run.exists_of_passes hcheck
  simp only [Bool.and_eq_true, decide_eq_true_eq, Bool.not_eq_true', List.any_eq_false] at hcheck
  obtain ⟨⟨hopened, hx⟩, hz⟩ := hcheck
  have hcourse : Course Rehearsal.depots.watched (s, u) [] _ :=
    .use (.use .start (.iterate _)) (.next 0 _)
  obtain ⟨-, hcurrent, -⟩ := one_open_at_a_time hs hcourse fun i fault hmem => hx _ hmem rfl
  obtain ⟨-, -, hended⟩ := one_open_at_a_time hs (hcourse.ending (.finish .earliest))
    fun i fault hmem => hz _ hmem rfl
  exact ⟨s, u, _, 1, hs, hcourse, hopened, hcurrent 1 (by rw [hopened]; decide),
    (hended (by simp)).1⟩

/-! ## 4. What is left open -/

theorem Turns.open_iff_stuck {acts : List Act} (h : Turns acts none) (i : StreamId) :
    stateAfter acts i ≠ .closed ↔ stateAfter acts i = .stuck := by
  constructor
  · intro hi
    rcases StreamState.opened_or_stuck hi with hopened | hstuck
    · cases h.held_of_opened hopened
    · exact hstuck
  · rintro hi
    rw [hi]
    decide

open Session in
/-- **What is left open.** When a delivery has been closed, the streams that are open are those that
    could not be closed. When a session has been ended, they are these and those opened after the
    first ending; there are none of the latter if the live chunk could be closed then, and so if
    that ending succeeded. -/
theorem open_after_close (D : Depots σ) :
    (∀ names w x y, Delivery.Uses D.watched (.ofNames names, (w, [])) x →
      Delivery.close D.watched x = (.ok (), y) →
      ∀ i, stateAfter y.2.2 i ≠ .closed ↔ stateAfter y.2.2 i = .stuck) ∧
    ∀ hasCopy comment w s u e x rest z, establish D.watched hasCopy comment (w, []) = (.ok s, u) →
      Course D.watched (s, u) ((e, x) :: rest) z →
      ∃ added, z.2.2 = (e.run D.watched x).2.2.2 ++ added ∧
        (∀ i, stateAfter z.2.2 i ≠ .closed ↔ stateAfter z.2.2 i = .stuck ∨
          stateAfter added i = .opened) ∧
        ((x.1.liveDelivery.shutCurrent D.watched x.2).1 = .ok () →
          ∀ act ∈ added, act.OpensNothing) ∧
        ((e.run D.watched x).1 = .ok () →
          (x.1.liveDelivery.shutCurrent D.watched x.2).1 = .ok ()) := by
  constructor
  · intro names w x y huses hclose
    obtain ⟨added, hacts, hlist⟩ := Delivery.close_closed D x
    rw [hclose] at hacts hlist
    rw [hacts]
    exact (hlist.turns (Delivery.turns_of_uses huses)).1.open_iff_stuck
  · intro hasCopy comment w s u e x rest z hs h
    obtain ⟨hparted, hopen, hrest⟩ :=
      parted_of_first (orderly_of_establish hs) (establish_eq_ok_iff.mp hs).isFresh.closed h
    have hclosed := e.closed_run (D := D.watched) x
    obtain ⟨added, hacts⟩ := exists_added_of_closed hrest hclosed
    refine ⟨added, hacts, fun i => ?_, fun hshut => ?_, fun hok => ?_⟩
    · have hbefore : stateAfter (e.run D.watched x).2.2.2 i ≠ .opened := by
        intro hopened
        cases hparted.turns.held_of_opened hopened
      rw [hacts, ← opened_append_iff hbefore]
      generalize stateAfter ((e.run D.watched x).2.2.2 ++ added) i = state
      cases state <;> decide
    · rw [hshut] at hparted
      obtain ⟨added', hacts', hadded⟩ := (opensNothing_of_idle hrest hclosed hparted.isIdle).2
      rw [hacts] at hacts'
      rwa [List.append_cancel_left hacts']
    · rw [e.run_eq hopen] at hok
      exact (e.onPlaces_within (endsWithin_opensNothing D) x.1 x.2).2 hok

/-! ### Two rehearsals -/

namespace Rehearsal

/-- Two chunks, of which the first cannot be closed at the first attempt. -/
def jamming : Rehearsal where
  remote := {
    resources := [("a", [1]), ("b", [2])]
    failClose := [("a", .io .general)] }

/-- A published index, of which the one chunk cannot be closed at the first attempt. -/
def clinging (fault : ScriptedFault) : Rehearsal where
  remote := { (offering []).remote with failClose := [(Plan.fullChunkName, fault)] }

end Rehearsal

/-- Whether no stream but one failed to be closed. -/
def Act.sparesAllBut (i : StreamId) : Act → Bool
  | shut j (.error _) => j = i
  | _ => true

theorem ne_stuck_of_sparesAllBut {acts : List Act} {i : StreamId}
    (hacts : acts.all (Act.sparesAllBut i) = true) (hi : stateAfter acts i = .closed)
    (j : StreamId) : stateAfter acts j ≠ .stuck := by
  intro hj
  obtain ⟨fault, hfault⟩ := exists_failed_of_stuck hj
  have hspared := List.all_eq_true.mp hacts _ hfault
  obtain rfl : j = i := by simpa [Act.sparesAllBut] using hspared
  rw [hi] at hj
  cases hj

open Session in
/-- Two attempts to close a chunk, of which the first fails. A delivery gives its first chunk up,
    and the caller closes it. In a session the caller fails to close the chunk, and the session
    does. Nothing is open at the end. -/
theorem open_after_close_clinging :
    (∃ x y,
      Delivery.Uses Rehearsal.depots.watched (.ofNames ["a", "b"], (Rehearsal.jamming, [])) x ∧
      Delivery.close Rehearsal.depots.watched x = (.ok (), y) ∧
      ∀ i, stateAfter y.2.2 i = .closed) ∧
    ∃ s u x z,
      establish Rehearsal.depots.watched true none (Rehearsal.clinging (.io .general), []) =
        (.ok s, u) ∧
      Course Rehearsal.depots.watched (s, u) [(.finish .earliest, x)] z ∧
      stateAfter x.2.2 1 = .stuck ∧ ∀ i, stateAfter z.2.2 i = .closed := by
  obtain ⟨hdelivery, hsession⟩ := open_after_close Rehearsal.depots
  constructor
  · have huses : Delivery.Uses Rehearsal.depots.watched
      (.ofNames ["a", "b"], (Rehearsal.jamming, [])) _ :=
      .tail (.tail (.single (.next _)) (.next _)) (.shut 0 _ _)
    have hclose := hdelivery _ _ _ _ huses (Prod.ext rfl rfl)
    refine ⟨_, _, huses, Prod.ext rfl rfl, fun i => ?_⟩
    by_contra hi
    exact ne_stuck_of_sparesAllBut (i := 0) (by decide +kernel) (by decide +kernel) i
      ((hclose i).mp hi)
  have hcheck : (establish Rehearsal.depots.watched true none).passes (fun s u =>
      let x := (next Rehearsal.depots.watched 0 (iterate Rehearsal.depots.watched (s, u)).2).2
      let y := (onDepots (Rehearsal.depots.watched.shut 1) x).2
      let z := (Session.finish Rehearsal.depots.watched .earliest y).2
      stateAfter y.2.2 1 = .stuck && z.2.2.all (Act.sparesAllBut 1) && stateAfter z.2.2 1 = .closed)
      (Rehearsal.clinging (.io .general), []) = true := by
    decide +kernel
  obtain ⟨s, u, hs, hcheck⟩ := Run.exists_of_passes hcheck
  simp only [Bool.and_eq_true, decide_eq_true_eq] at hcheck
  obtain ⟨⟨hstuck, hspared⟩, hclosed⟩ := hcheck
  have hcourse : Course Rehearsal.depots.watched (s, u) _ _ :=
    .ending (.use (.use (.use .start (.iterate _)) (.next 0 _)) (.shut 1 _)) (.finish .earliest)
  obtain ⟨added, hacts, hopen, -⟩ := hsession _ _ _ _ _ _ _ _ _ hs hcourse
  obtain rfl := List.append_right_eq_self.mp hacts.symm
  refine ⟨s, u, _, _, hs, hcourse, hstuck, fun i => ?_⟩
  by_contra hi
  rcases (hopen i).mp hi with hi | hi
  · exact ne_stuck_of_sparesAllBut hspared hclosed i hi
  · cases hi

open Delivery in
/-- **A chunk is left open by a close that succeeds.** The delivery could not close it when it was
    to hand out the next one, and gave it up. -/
theorem left_open_after_close :
    ∃ x y, Uses Rehearsal.depots.watched (.ofNames ["a", "b"], (Rehearsal.jamming, [])) x ∧
      close Rehearsal.depots.watched x = (.ok (), y) ∧
      stateAfter y.2.2 0 = .stuck ∧ Rehearsal.isShut 0 y.2.1 = false := by
  refine ⟨_, _, .tail (.single (.next _)) (.next _), Prod.ext ?_ rfl, ?_, ?_⟩
  · rfl
  · decide +kernel
  · decide +kernel
end IndexChain
