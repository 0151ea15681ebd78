import IndexChain.Run

/-!
# Steps on a state — how they end, and what they leave alone

Two readings of a step are used throughout.

* **How it ended.** `bind_eq_ok_iff` and its companions take an outcome apart: a composed step
  answers exactly if its parts do, one after the other. Successful runs are unrolled by these alone.
* **What it left alone, however it ended.** `Within R` says that the states before and after are
  related by `R`. For a preorder `R` this passes through every way of putting steps together, so it
  is shown for the operations on the places and holds of whatever is made of them.

The loop `forEach` has a rule of its own (`forEach_rule`). Its invariant is indexed by the number of
items that may still come, which is what its fuel is for: with enough of it the loop never stops for
want of fuel, and the rule's conclusion does not speak of fuel at all.
-/

namespace IndexChain.Run

variable {σ α β : Type}

/-! ## 1. How a step ended -/

@[simp] theorem pure_apply (a : α) (s : σ) : (pure a : Run σ α) s = (.ok a, s) := rfl

@[simp] theorem done_apply (a : α) (s : σ) : (done a : Run σ α) s = (.ok a, s) := rfl

@[simp] theorem fail_apply (fault : Fault) (s : σ) :
    (fail fault : Run σ α) s = (.error fault, s) := rfl

@[simp] theorem change_apply (f : σ → σ) (s : σ) : change f s = (.ok (), f s) := rfl

@[simp] theorem ofExcept_apply (e : Except Fault α) (s : σ) : ofExcept e s = (e, s) := by
  cases e <;> rfl

theorem bind_of_ok {x : Run σ α} {f : α → Run σ β} {s t : σ} {a : α} (h : x s = (.ok a, t)) :
    (x >>= f) s = f a t := by
  show andThen x f s = f a t
  simp [andThen, h]

theorem bind_of_error {x : Run σ α} {f : α → Run σ β} {s t : σ} {fault : Fault}
    (h : x s = (.error fault, t)) : (x >>= f) s = (.error fault, t) := by
  show andThen x f s = (.error fault, t)
  simp [andThen, h]

theorem bind_eq_ok_iff {x : Run σ α} {f : α → Run σ β} {s t : σ} {b : β} :
    (x >>= f) s = (.ok b, t) ↔ ∃ a u, x s = (.ok a, u) ∧ f a u = (.ok b, t) := by
  rcases hx : x s with ⟨fault | a, u⟩
  · rw [bind_of_error hx]
    simp
  · rw [bind_of_ok hx]
    constructor
    · exact fun h => ⟨a, u, rfl, h⟩
    · rintro ⟨a', u', heq, h⟩
      cases heq
      exact h

theorem map_eq_error_iff {outcome : Except Fault α} {f : α → β} {fault : Fault} :
    outcome.map f = .error fault ↔ outcome = .error fault := by
  cases outcome <;> simp [Except.map]

/-- To make something of an answer leaves the state alone. -/
theorem bind_pure_apply (x : Run σ α) (f : α → β) (s : σ) :
    (x >>= fun a => pure (f a)) s = ((x s).1.map f, (x s).2) := by
  rcases hx : x s with ⟨fault | a, t⟩
  · exact bind_of_error hx
  · exact bind_of_ok hx

/-- What holds after a step and is kept by whatever may follow holds after both. -/
theorem holds_bind {P : σ → Prop} {x : Run σ α} {f : α → Run σ β} {s : σ} (hx : P (x s).2)
    (hf : ∀ a t, P t → P (f a t).2) : P ((x >>= f) s).2 := by
  rcases h : x s with ⟨fault | a, t⟩
  · rw [h] at hx
    rw [bind_of_error h]
    exact hx
  · rw [h] at hx
    rw [bind_of_ok h]
    exact hf a t hx

theorem ensure_eq_ok_iff {x : Run σ α} {after : Run σ Unit} {s t : σ} {a : α} :
    x.ensure after s = (.ok a, t) ↔ ∃ u, x s = (.ok a, u) ∧ after u = (.ok (), t) := by
  constructor
  · intro h
    rcases hx : x s with ⟨o, u⟩
    rcases ha : after u with ⟨fault | ⟨⟩, v⟩
    · simp [ensure, hx, ha] at h
    · simp only [ensure, hx, ha, Prod.mk.injEq] at h
      obtain ⟨rfl, rfl⟩ := h
      exact ⟨u, rfl, ha⟩
  · rintro ⟨u, hx, ha⟩
    simp [ensure, hx, ha]

/-- A fault in what comes after takes the place of any outcome. -/
theorem ensure_apply (x : Run σ α) (after : Run σ Unit) (s : σ) :
    x.ensure after s = ((after (x s).2).1 >>= fun _ => (x s).1, (after (x s).2).2) := by
  rcases hx : x s with ⟨o, t⟩
  rcases ha : after t with ⟨fault | ⟨⟩, u⟩ <;> simp [ensure, hx, ha, bind, Except.bind]

theorem ensure_snd (x : Run σ α) (after : Run σ Unit) (s : σ) :
    (x.ensure after s).2 = (after (x s).2).2 := congrArg Prod.snd (ensure_apply x after s)

/-- What cannot fail leaves the outcome alone. -/
theorem ensure_of_ok {x : Run σ α} {after : Run σ Unit}
    (hafter : ∀ t, (after t).1 = .ok ()) (s : σ) :
    x.ensure after s = ((x s).1, (after (x s).2).2) := by
  rw [ensure_apply, hafter]
  rfl

theorem recover_of_ok {x : Run σ α} {caught : Fault → Bool} {answer : Fault → Run σ α}
    {s t : σ} {a : α} (h : x s = (.ok a, t)) : x.recover caught answer s = (.ok a, t) := by
  unfold recover
  rw [h]

theorem recover_of_caught {x : Run σ α} {caught : Fault → Bool} {answer : Fault → Run σ α} {s t : σ}
    {fault : Fault} (h : x s = (.error fault, t)) (hcaught : caught fault = true) :
    x.recover caught answer s = answer fault t := by
  unfold recover
  rw [h]
  exact if_pos hcaught

theorem recover_of_uncaught {x : Run σ α} {caught : Fault → Bool}
    {answer : Fault → Run σ α} {s t : σ} {fault : Fault} (h : x s = (.error fault, t))
    (hcaught : ¬caught fault = true) :
    x.recover caught answer s = (.error fault, t) := by
  unfold recover
  rw [h]
  exact if_neg hcaught

/-- If whatever is done about failures fails, a success is the step's own. -/
theorem eq_ok_of_recover {x : Run σ α} {caught : Fault → Bool} {answer : Fault → Run σ α}
    {s t : σ} {a : α} (hanswer : ∀ fault u b v, answer fault u ≠ (.ok b, v))
    (h : x.recover caught answer s = (.ok a, t)) : x s = (.ok a, t) := by
  rcases hx : x s with ⟨fault | b, u⟩
  · by_cases hcaught : caught fault = true
    · exact absurd ((recover_of_caught hx hcaught).symm.trans h) (hanswer fault u a t)
    · cases (recover_of_uncaught hx hcaught).symm.trans h
  · exact (recover_of_ok hx).symm.trans h

/-- If whatever is done about a failure fails with it, the step ends as it would alone. -/
theorem recover_fst {x : Run σ α} {caught : Fault → Bool} {answer : Fault → Run σ α}
    (hanswer : ∀ fault t, (answer fault t).1 = .error fault) (s : σ) :
    (x.recover caught answer s).1 = (x s).1 := by
  rcases hx : x s with ⟨fault | a, t⟩
  · by_cases hcaught : caught fault = true
    · rw [recover_of_caught hx hcaught, hanswer]
    · rw [recover_of_uncaught hx hcaught]
  · rw [recover_of_ok hx]

/-- Whether a step answers, and its answer and state pass a check. -/
def passes (x : Run σ α) (check : α → σ → Bool) (s : σ) : Bool :=
  match x s with
  | (.ok a, t) => check a t
  | (.error _, _) => false

theorem exists_of_passes {x : Run σ α} {check : α → σ → Bool} {s : σ}
    (h : x.passes check s = true) : ∃ a t, x s = (.ok a, t) ∧ check a t = true := by
  unfold passes at h
  rcases hx : x s with ⟨fault | a, t⟩
  · rw [hx] at h
    cases h
  · rw [hx] at h
    exact ⟨a, t, rfl, h⟩

/-! ### What a step fails of -/

/-- The fault of a step that fails. -/
def failure? (x : Run σ α) (s : σ) : Option Fault :=
  match (x s).1 with
  | .error fault => some fault
  | .ok _ => none

section Failure

variable {x : Run σ α} {f : α → Run σ β} {s t : σ} {a : α} {fault : Fault}

theorem failure?_of_ok (h : x s = (.ok a, t)) : x.failure? s = none := by
  unfold failure?
  rw [h]

theorem failure?_of_error (h : x s = (.error fault, t)) : x.failure? s = some fault := by
  unfold failure?
  rw [h]

theorem failure?_bind_of_ok (h : x s = (.ok a, t)) : (x >>= f).failure? s = (f a).failure? t := by
  unfold failure?
  rw [bind_of_ok h]

theorem failure?_bind_of_error (h : x s = (.error fault, t)) : (x >>= f).failure? s = some fault :=
  failure?_of_error (bind_of_error h)

end Failure

/-! ## 2. What a step left alone -/

/-- The states before and after the step are related, however it ended. -/
def Within (R : σ → σ → Prop) (x : Run σ α) : Prop := ∀ s, R s (x s).2

section Within

variable {R : σ → σ → Prop}

theorem Within.of_eq {x : Run σ α} (hx : Within R x) {s t : σ} {o : Except Fault α}
    (h : x s = (o, t)) : R s t := by
  have hs := hx s
  rw [h] at hs
  exact hs

theorem Within.pure (hrefl : ∀ s, R s s) (a : α) : Within R (pure a : Run σ α) := hrefl

theorem Within.ofExcept (hrefl : ∀ s, R s s) (e : Except Fault α) : Within R (Run.ofExcept e) := by
  intro s
  rw [ofExcept_apply]
  exact hrefl s

theorem Within.bind (htrans : ∀ s t u, R s t → R t u → R s u) {x : Run σ α} {f : α → Run σ β}
    (hx : Within R x) (hf : ∀ a, Within R (f a)) : Within R (x >>= f) := by
  intro s
  have hs := hx s
  rcases h : x s with ⟨fault | a, t⟩
  · rw [bind_of_error h]
    simpa [h] using hs
  · rw [bind_of_ok h]
    rw [h] at hs
    exact htrans _ _ _ hs (hf a t)

theorem Within.ensure (htrans : ∀ s t u, R s t → R t u → R s u) {x : Run σ α} {after : Run σ Unit}
    (hx : Within R x) (ha : Within R after) : Within R (x.ensure after) := by
  intro s
  rw [ensure_snd]
  exact htrans _ _ _ (hx s) (ha _)

theorem Within.recover (htrans : ∀ s t u, R s t → R t u → R s u) {x : Run σ α}
    {caught : Fault → Bool} {answer : Fault → Run σ α} (hx : Within R x)
    (hanswer : ∀ fault, Within R (answer fault)) :
    Within R (x.recover caught answer) := by
  intro s
  have hs := hx s
  rcases h : x s with ⟨fault | a, t⟩
  · rw [h] at hs
    by_cases hcaught : caught fault = true
    · rw [recover_of_caught h hcaught]
      exact htrans _ _ _ hs (hanswer fault t)
    · rw [recover_of_uncaught h hcaught]
      exact hs
  · rw [h] at hs
    rw [recover_of_ok h]
    exact hs

/-- A loop goes on from what asking for the first item has left. -/
theorem Within.forEach_succ (hrefl : ∀ s, R s s) (htrans : ∀ s t u, R s t → R t u → R s u)
    {next : Run σ α} {consume : Nat → α → Run σ β} (hconsume : ∀ k a, Within R (consume k a))
    {fuel : Nat} (hrest : ∀ k acc, Within R (forEach next consume fuel k acc)) (k : Nat)
    (acc : List β) (s : σ) :
    R (next s).2 (Run.forEach next consume (fuel + 1) k acc s).2 := by
  unfold Run.forEach
  rcases next s with ⟨fault | a, t⟩
  · cases fault <;> exact hrefl t
  · have ht := hconsume k a t
    rcases hdone : consume k a t with ⟨fault | b, u⟩
    · simpa only [hdone] using ht
    · rw [hdone] at ht
      simp only [hdone]
      exact htrans _ _ _ ht (hrest (k + 1) (b :: acc) u)

theorem Within.forEach (hrefl : ∀ s, R s s) (htrans : ∀ s t u, R s t → R t u → R s u)
    {next : Run σ α} {consume : Nat → α → Run σ β} (hnext : Within R next)
    (hconsume : ∀ k a, Within R (consume k a)) :
    ∀ fuel k acc, Within R (forEach next consume fuel k acc) := by
  intro fuel
  induction fuel with
  | zero => exact fun _ _ => hrefl
  | succ fuel ih =>
    exact fun k acc s =>
      htrans _ _ _ (hnext s) (forEach_succ hrefl htrans hconsume ih k acc s)

end Within

/-! ## 3. Loops -/

section Loop

variable {next : Run σ α} {consume : Nat → α → Run σ β} {s t u : σ} {a : α} {b : β} {fault : Fault}

theorem forEach_of_exhausted (h : next s = (.error .exhausted, t)) (fuel k : Nat) (acc : List β) :
    forEach next consume (fuel + 1) k acc s = (.ok acc.reverse, t) := by
  rw [forEach]
  simp only [h]

theorem forEach_of_error (h : next s = (.error fault, t)) (hne : fault ≠ .exhausted) (fuel k : Nat)
    (acc : List β) : forEach next consume (fuel + 1) k acc s = (.error fault, t) := by
  rw [forEach]
  simp only [h]

theorem forEach_of_body_error (h : next s = (.ok a, t)) {k : Nat}
    (hbody : consume k a t = (.error fault, u)) (fuel : Nat) (acc : List β) :
    forEach next consume (fuel + 1) k acc s = (.error fault, u) := by
  rw [forEach]
  simp only [h, hbody]

theorem forEach_of_ok (h : next s = (.ok a, t)) {k : Nat} (hbody : consume k a t = (.ok b, u))
    (fuel : Nat) (acc : List β) :
    forEach next consume (fuel + 1) k acc s = forEach next consume fuel (k + 1) (b :: acc) u := by
  rw [forEach]
  simp only [h, hbody]

end Loop

/-- **The rule of the loop.** `I n` holds before an item is asked for, if at most `n` more can come.
    The loop ends well when there are no more items, and badly when asking for one or consuming it
    fails; what holds then is `Q`. -/
theorem forEach_rule {next : Run σ α} {consume : Nat → α → Run σ β} {I : Nat → σ → Prop}
    {Q : Except Fault (List β) → σ → Prop}
    (hend : ∀ n s t out, I n s → next s = (.error .exhausted, t) → Q (.ok out) t)
    (hfail : ∀ n s t fault, I n s → next s = (.error fault, t) → fault ≠ .exhausted →
      Q (.error fault) t)
    (hbody : ∀ n s t u k a fault, I n s → next s = (.ok a, t) → consume k a t = (.error fault, u) →
      Q (.error fault) u)
    (hstep : ∀ n s t u k a b, I n s → next s = (.ok a, t) → consume k a t = (.ok b, u) →
      ∃ m < n, I m u) :
    ∀ fuel n k acc s, I n s → n < fuel →
      Q (forEach next consume fuel k acc s).1 (forEach next consume fuel k acc s).2 := by
  intro fuel
  induction fuel with
  | zero =>
    -- there is always fuel left for what may still come
    intro n k acc s _ hn
    exact absurd hn (Nat.not_lt_zero n)
  | succ fuel ih =>
    intro n k acc s hs hn
    rcases hnext : next s with ⟨fault | a, t⟩
    · by_cases he : fault = .exhausted
      · subst he
        rw [forEach_of_exhausted hnext]
        exact hend n s t _ hs hnext
      · rw [forEach_of_error hnext he]
        exact hfail n s t fault hs hnext he
    · rcases hcons : consume k a t with ⟨fault | b, u⟩
      · rw [forEach_of_body_error hnext hcons]
        exact hbody n s t u k a fault hs hnext hcons
      · -- one item fewer may come, and there is one unit of fuel less
        obtain ⟨m, hm, hu⟩ := hstep n s t u k a b hs hnext hcons
        rw [forEach_of_ok hnext hcons]
        exact ih m (k + 1) (b :: acc) u hu (by omega)

end IndexChain.Run
