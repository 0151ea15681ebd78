import IndexChain.Proofs.Closing
import IndexChain.Proofs.Stages

/-!
# Passes — one after the other

A session keeps all passes that it ever started, each in its place, and callers may step any of them
at any time. Whatever they do, a pass only goes on by steps of its own (`KeepsPasses`), and so one
that has no next chunk never has one again.

A new pass is started when the one before it could be closed, and then that has no next chunk. So
**there is a next chunk in one pass at most, and starting a pass is the end of all before it**
(`one_live_pass`). If no new pass can be started, there is none.
-/

namespace IndexChain

variable {σ : Type}

/-! ## 1. A pass goes on -/

namespace Delivery

/-- One delivery came of the other by steps of callers. -/
abbrev Becomes : Delivery → Delivery → Prop :=
  Relation.ReflTransGen fun d d' => ∃ added, Stepped d d' added

theorem Becomes.of_over {d d' : Delivery} (h : Becomes d d') (hover : d.hasNext = false) :
    d'.hasNext = false := by
  induction h with
  | refl => exact hover
  | tail _ hstep ih =>
    obtain ⟨added, hstep⟩ := hstep
    exact (hstep.of_over ih).1

end Delivery

namespace Session

open Delivery

variable {D : Depots σ} {s s' s'' : Session} {d : Delivery} {i : Nat} {added : List Act}
  {x y z : Session × (σ × List Act)} {ends : List (Ending × (Session × (σ × List Act)))}

/-- The passes stay in their places and go on by steps of their own. There may be more of them. -/
structure KeepsPasses (s s' : Session) : Prop where
  length_le : s.passes.length ≤ s'.passes.length
  becomes : ∀ k < s.passes.length, Becomes (s.passAt k) (s'.passAt k)

namespace KeepsPasses

theorem of_eq (h : s'.passes = s.passes) : KeepsPasses s s' where
  length_le := by rw [h]
  becomes k _ := by
    unfold passAt
    rw [h]

theorem trans (h : KeepsPasses s s') (h' : KeepsPasses s' s'') : KeepsPasses s s'' where
  length_le := Nat.le_trans h.length_le h'.length_le
  becomes k hk := (h.becomes k hk).trans (h'.becomes k (Nat.lt_of_lt_of_le hk h.length_le))

theorem setPass (hstep : Stepped (s.passAt i) d added) : KeepsPasses s (s.setPass i d) where
  length_le := by simp [Session.setPass]
  becomes k hk := by
    by_cases hki : k = i
    · subst hki
      rw [passAt_setPass_self hk]
      exact .single ⟨added, hstep⟩
    · rw [passAt_setPass_of_ne hki]

theorem append (h : s'.passes = s.passes ++ [d]) : KeepsPasses s s' where
  length_le := by simp [h]
  becomes k hk := by
    unfold passAt
    rw [h, List.getElem?_append_left hk]

/-- A pass that has no next chunk never has one again. -/
theorem remains_over (h : KeepsPasses s s') (hi : i < s.passes.length)
    (hover : (s.passAt i).hasNext = false) : (s'.passAt i).hasNext = false :=
  (h.becomes i hi).of_over hover

end KeepsPasses

/-! ## 2. Starting a pass -/

/-- The session with a new pass, which is the live one. -/
def withPass (s : Session) : Session :=
  { s with passes := s.passes ++ [.ofNames s.plan.chunkNames], live := some s.passes.length }

theorem length_setPass (s : Session) (i : Nat) (d : Delivery) :
    (s.setPass i d).passes.length = s.passes.length := by
  simp [setPass]

theorem passAt_withPass (s : Session) :
    s.withPass.passAt s.passes.length = .ofNames s.plan.chunkNames := by
  simp [withPass, passAt]

/-- How starting a pass ends. -/
inductive Started (D : Depots σ) (x : Session × (σ × List Act)) : Except Fault Nat → Session → Prop
  | ended (closed : x.1.closed = true) : Started D x (.error isOver) x.1
  | unshut {i : Nat} {fault : Fault} (live : x.1.live = some i)
      (unshut : (Delivery.close D.watched (x.1.passAt i, x.2)).1 = .error fault) :
      Started D x (.error fault) (x.1.setPass i (Delivery.close D.watched (x.1.passAt i, x.2)).2.1)
  | first (live : x.1.live = none) : Started D x (.ok x.1.passes.length) x.1.withPass
  | another {i : Nat} (live : x.1.live = some i) {s' : Session}
      (closed : s' = x.1.setPass i (Delivery.close D.watched (x.1.passAt i, x.2)).2.1) :
      Started D x (.ok s'.passes.length) s'.withPass

theorem iterate_started (D : Depots σ) (x : Session × (σ × List Act)) :
    Started D x (iterate D.watched x).1 (iterate D.watched x).2.1 := by
  obtain ⟨s, u⟩ := x
  by_cases hclosed : s.closed = true
  · have hleft : iterate D.watched (s, u) = (.error isOver, s, u) := if_pos hclosed
    rw [hleft]
    exact .ended hclosed
  · have hopen : s.closed = false := Bool.eq_false_iff.mpr hclosed
    cases hlive : s.live with
    | none =>
      have hfirst : iterate D.watched (s, u) = (.ok s.passes.length, s.withPass, u) := by
        simp [iterate, hopen, hlive, withPass]
      rw [hfirst]
      exact .first hlive
    | some i =>
      simp only [iterate, hopen, hlive, onPass_eq, Bool.false_eq_true, if_false]
      rcases hclose : Delivery.close D.watched (s.passAt i, u) with ⟨fault | ⟨⟩, d, v⟩
      · have hunshut := Started.unshut (x := (s, u)) hlive (congrArg Prod.fst hclose)
        rwa [hclose] at hunshut
      · exact .another (x := (s, u)) hlive (by rw [hclose])

theorem close_stepped (D : Depots σ) (d : Delivery) (u : σ × List Act) :
    ∃ added, Stepped d (Delivery.close D.watched (d, u)).2.1 added := by
  obtain ⟨added, -, hlist⟩ := close_closed D (d, u)
  exact ⟨added, .closed hlist⟩

theorem Started.keepsPasses {o : Except Fault Nat} (h : Started D x o s') : KeepsPasses x.1 s' := by
  cases h with
  | ended => exact .of_eq rfl
  | @unshut i =>
    obtain ⟨_, hstep⟩ := close_stepped D (x.1.passAt i) x.2
    exact .setPass hstep
  | first => exact .append rfl
  | @another i _ _ hclosed =>
    obtain ⟨_, hstep⟩ := close_stepped D (x.1.passAt i) x.2
    exact (hclosed ▸ KeepsPasses.setPass hstep).trans (.append rfl)

theorem Started.of_ok {j : Nat} (h : Started D x (.ok j) s') :
    j = x.1.passes.length ∧ s'.passes.length = j + 1 ∧ s'.live = some j ∧
      s'.passAt j = .ofNames x.1.plan.chunkNames := by
  cases h with
  | first => exact ⟨rfl, by simp [withPass], rfl, passAt_withPass _⟩
  | @another _ _ s' hclosed =>
    have hplan : s'.plan = x.1.plan := by rw [hclosed]; rfl
    refine ⟨by rw [hclosed, length_setPass], by simp [withPass], rfl, ?_⟩
    rw [passAt_withPass, hplan]

theorem Started.of_error {fault : Fault} (h : Started D x (.error fault) s') :
    s'.passes.length = x.1.passes.length ∧
      (x.1.closed = true ∧ fault = isOver ∨
        (x.1.liveDelivery.shutCurrent D.watched x.2).1 = .error fault) := by
  cases h with
  | ended hclosed => exact ⟨rfl, .inl ⟨hclosed, rfl⟩⟩
  | unshut hlive hunshut =>
    refine ⟨length_setPass _ _ _, .inr ?_⟩
    rw [liveDelivery_of_live hlive]
    rwa [Delivery.close_eq] at hunshut

/-! ## 3. Courses -/

theorem Use.keepsPasses (huse : Use D.watched x y) : KeepsPasses x.1 y.1 := by
  cases huse with
  | iterate => exact (iterate_started D x).keepsPasses
  | next i =>
    obtain ⟨_, -, hlist⟩ := next_asked D (x.1.passAt i, x.2)
    exact .setPass (.asked hlist)
  | closePass i =>
    obtain ⟨_, hstep⟩ := close_stepped D (x.1.passAt i) x.2
    exact .setPass hstep
  | read | shut => exact .of_eq rfl

theorem closeLive_keepsPasses (D : Depots σ) (x : Session × (σ × List Act)) :
    KeepsPasses x.1 (closeLive D.watched x).2.1 := by
  cases hlive : x.1.live with
  | none =>
    have hleft : closeLive D.watched x = (.ok (), x) := by
      simp only [closeLive, hlive]
    rw [hleft]
    exact .of_eq rfl
  | some i =>
    obtain ⟨_, hstep⟩ := close_stepped D (x.1.passAt i) x.2
    exact (KeepsPasses.setPass hstep).trans (.of_eq (passes_closeLive hlive))

theorem Ending.keepsPasses (e : Ending) (x : Session × (σ × List Act)) :
    KeepsPasses x.1 (e.run D.watched x).2.1 := by
  by_cases hclosed : x.1.closed = true
  · rw [e.run_of_closed hclosed]
    exact .of_eq rfl
  · have hended : KeepsPasses x.1 x.1.ended := .of_eq rfl
    rw [e.run_eq (Bool.eq_false_iff.mpr hclosed)]
    exact hended.trans (closeLive_keepsPasses D (x.1.ended, x.2))

/-- **Whatever is done with a session, its passes only go on by steps of their own.** -/
theorem keepsPasses_of_course (h : Course D.watched x ends z) : KeepsPasses x.1 z.1 := by
  induction h with
  | start => exact .of_eq rfl
  | use _ huse ih => exact ih.trans huse.keepsPasses
  | ending _ e ih => exact ih.trans (e.keepsPasses _)

/-! ## 4. One live pass -/

theorem setPass_passAt (s : Session) (i : Nat) : s.setPass i (s.passAt i) = s := by
  have hpasses : s.passes.set i (s.passAt i) = s.passes := by
    by_cases hi : i < s.passes.length
    · simp [passAt, hi]
    · exact List.set_eq_of_length_le (Nat.le_of_not_lt hi)
  rw [setPass, hpasses]

/-- A pass that has no next chunk does nothing when it is asked for one. -/
theorem next_of_over (D : Depots σ) {x : Session × σ} (h : (x.1.passAt i).hasNext = false) :
    next D i x = (.error .exhausted, x) := by
  unfold next
  rw [onPass_eq, Delivery.next_of_over D x.2 h]
  simp only [setPass_passAt]

/-- **One live pass.** Whatever was done with a session, and whatever failed:

* there is a next chunk in one of its passes at most;
* if a new pass is started, it is in the place behind all others, and has the chunks of the plan
  before it. Those before it are over for good: whatever is done then, they have no next chunk, they
  do nothing when they are asked for one, and closing them opens nothing;
* if no pass can be started there is no new one. Either the session is over, or the live chunk could
  not be closed. -/
theorem one_live_pass {hasCopy : Bool} {comment : Option Text} {w : σ} {u : σ × List Act}
    (hs : establish D.watched hasCopy comment (w, []) = (.ok s, u))
    (h : Course D.watched (s, u) ends x) :
    (∀ i k, (x.1.passAt i).hasNext = true → (x.1.passAt k).hasNext = true → i = k) ∧
    (∀ j y, iterate D.watched x = (.ok j, y) →
      j = x.1.passes.length ∧ y.1.passes.length = j + 1 ∧
      y.1.passAt j = .ofNames x.1.plan.chunkNames ∧
      ∀ i < j, ∀ ends' z, Course D.watched y ends' z →
        (z.1.passAt i).hasNext = false ∧ next D.watched i z = (.error .exhausted, z) ∧
        Act.asked (onPass i (Delivery.close D.watched) z).2.2.2 = Act.asked z.2.2) ∧
    (∀ fault y, iterate D.watched x = (.error fault, y) →
      y.1.passes.length = x.1.passes.length ∧
      (x.1.closed = true ∧ fault = isOver ∨
        (x.1.liveDelivery.shutCurrent D.watched x.2).1 = .error fault)) := by
  have horderly := orderly_of_course h (orderly_of_establish hs)
  have hstarted := iterate_started D x
  refine ⟨fun i k hi hk => ?_, fun j y hiterate => ?_, fun fault y hiterate => ?_⟩
  · -- only the live pass is not spent
    have hlive (k : Nat) (hk : (x.1.passAt k).hasNext = true) : x.1.live = some k := by
      by_contra hnot
      cases hk.symm.trans (horderly.spent k hnot).hasNext_eq
    exact Option.some.inj ((hlive i hi).symm.trans (hlive k hk))
  · have hy : Orderly y.1 y.2.2 := by
      have hnext := iterate_orderly (D := D) horderly
      rwa [hiterate] at hnext
    rw [hiterate] at hstarted
    obtain ⟨hj, hlength, hlive, hpass⟩ := hstarted.of_ok
    have hlength : y.1.passes.length = j + 1 := hlength
    refine ⟨hj, hlength, hpass, fun i hi ends' z hz => ?_⟩
    have hspent := hy.spent i fun heq => Nat.ne_of_lt hi (Option.some.inj (heq.symm.trans hlive))
    have hover := (keepsPasses_of_course hz).remains_over (by omega) hspent.hasNext_eq
    obtain ⟨added, hacts, hlist⟩ := close_closed D (z.1.passAt i, z.2)
    refine ⟨hover, next_of_over D.watched hover, ?_⟩
    rw [onPass_eq, hacts, Act.asked_append, hlist.asked_eq, List.append_nil]
  · rw [hiterate] at hstarted
    exact hstarted.of_error

end Session

/-! ### A rehearsal -/

open Session in
/-- A second pass is started before the first was asked for its chunk. -/
theorem one_live_pass_offering :
    ∃ s u x y, establish Rehearsal.depots.watched true none (Rehearsal.offering [], []) =
      (.ok s, u) ∧
      Course Rehearsal.depots.watched (s, u) [] x ∧ (x.1.passAt 0).hasNext = true ∧
      iterate Rehearsal.depots.watched x = (.ok 1, y) ∧
      ∀ ends z, Course Rehearsal.depots.watched y ends z →
        next Rehearsal.depots.watched 0 z = (.error .exhausted, z) := by
  have hcheck : (establish Rehearsal.depots.watched true none).passes (fun s u =>
      let x := (iterate Rehearsal.depots.watched (s, u)).2
      (x.1.passAt 0).hasNext && (iterate Rehearsal.depots.watched).passes (fun j _ => j = 1) x)
      (Rehearsal.offering [], []) = true := by
    decide +kernel
  obtain ⟨s, u, hs, hcheck⟩ := Run.exists_of_passes hcheck
  simp only [Bool.and_eq_true] at hcheck
  obtain ⟨hnext, hsecond⟩ := hcheck
  obtain ⟨j, y, hiterate, hj⟩ := Run.exists_of_passes hsecond
  obtain rfl := of_decide_eq_true hj
  have hcourse : Course Rehearsal.depots.watched (s, u) [] _ := .use .start (.iterate _)
  obtain ⟨-, hlater, -⟩ := one_live_pass hs hcourse
  obtain ⟨-, -, -, hover⟩ := hlater 1 y hiterate
  exact ⟨s, u, _, y, hs, hcourse, hnext, hiterate,
    fun ends z hz => (hover 0 Nat.one_pos ends z hz).2.1⟩

end IndexChain
