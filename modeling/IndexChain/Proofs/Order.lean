import IndexChain.Proofs.Recording

/-!
# Order — chunks are asked for one after the other

Callers ask a delivery for chunks, close it, and read and close the chunks they were handed, as
often and in whatever order (`Delivery.Use`). The places are watched, and may fail at any call. What
asking and closing add to the history is listed once, in `Asked` and `Closed`; the rest of the
module goes through these two lists.

* While a delivery goes on, the names asked for and those pending make up the plan (`InOrder`).
* A delivery that has no next chunk will never have one, and asks for nothing (`Uses.of_over`).

So **the names asked for are the beginning of the plan, in its order**, and a chunk that is handed
out is the one just asked for. A switch to a chunk that fails is the last: after it nothing is asked
for.
-/

namespace IndexChain

variable {σ : Type}

namespace Act

/-- The name under which the remote place was asked for a resource, whatever came of it. -/
def asked? : Act → Option Text
  | fetched .remote name _ => some name
  | _ => none

/-- The names asked for, in order. -/
def asked (acts : List Act) : List Text := acts.filterMap asked?

/-- Whether the operation failed. -/
def hasFailed : Act → Bool
  | fetched _ _ (.error _) | read _ (.error _) | shut _ (.error _) | stored _ _ (.error _)
  | released _ (.error _) => true
  | _ => false

@[simp] theorem asked_append (acts added : List Act) :
    asked (acts ++ added) = asked acts ++ asked added :=
  List.filterMap_append

@[simp] theorem asked_read (i : StreamId) (o : Except Fault Bytes) : asked [read i o] = [] := rfl

@[simp] theorem asked_shut (i : StreamId) (o : Except Fault Unit) : asked [shut i o] = [] := rfl

@[simp] theorem asked_fetched (name : Text) (o : Except Fault StreamId) :
    asked [fetched .remote name o] = [name] := rfl

end Act

/-- What opening a resource makes true of its stream, and logging leaves alone. -/
structure Depots.Serves (D : Depots σ) (Holds : σ → StreamId → Text → Prop) : Prop where
  fetch : ∀ {name w i w'}, D.fetch .remote name w = (.ok i, w') → Holds w' i name
  note : ∀ {w i name} (r : Record), Holds w i name → Holds (D.note r w) i name

namespace Delivery

/-! ## 1. What callers do -/

/-- A step of a caller of a delivery, however it ends. -/
inductive Use (D : Depots σ) : Delivery × σ → Delivery × σ → Prop
  | next (x : Delivery × σ) : Use D x (next D x).2
  | close (x : Delivery × σ) : Use D x (close D x).2
  | read (i : StreamId) (size : Option Nat) (d : Delivery) (w : σ) : Use D (d, w)
    (d, (D.read i size w).2)
  | shut (i : StreamId) (d : Delivery) (w : σ) : Use D (d, w) (d, (D.shut i w).2)

/-- Any number of steps of a caller. -/
abbrev Uses (D : Depots σ) : Delivery × σ → Delivery × σ → Prop := Relation.ReflTransGen (Use D)

theorem hasNext_iff {d : Delivery} : d.hasNext = true ↔ d.stage ≠ .failed ∧ d.pending ≠ [] := by
  simp [hasNext]

theorem hasNext_eq_false_iff {d : Delivery} :
    d.hasNext = false ↔ d.stage = .failed ∨ d.pending = [] := by
  rw [← Bool.not_eq_true, hasNext_iff]
  by_cases hstage : d.stage = .failed <;> simp [hstage]

theorem asked_shutting (d : Delivery) : Act.asked d.shutting = [] := by
  unfold shutting
  cases d.current <;> rfl

/-! ## 2. What is added to the history -/

/-- What asking for a chunk adds to the history, outcome by outcome. -/
inductive Asked (d : Delivery) : Except Fault Chunk → Delivery → List Act → Prop
  | drained : d.hasNext = false → Asked d (.error .exhausted) d []
  | unshut {name : Text} {rest : List Text} {chunk : Chunk} {fault : Fault} :
      d.stage ≠ .failed → d.pending = name :: rest → d.current = some chunk →
      Asked d (.error (switchFault name fault)) { d with current := none, stage := .failed }
        [.shut chunk.stream (.error fault)]
  | unfetched {name : Text} {rest : List Text} {fault : Fault} :
      d.stage ≠ .failed → d.pending = name :: rest →
      Asked d (.error (switchFault name fault)) { d with current := none, stage := .failed }
        (d.shutting ++ [.fetched .remote name (.error fault)])
  | handed {name : Text} {rest : List Text} {stream : StreamId} :
      d.stage ≠ .failed → d.pending = name :: rest →
      Asked d (.ok ⟨name, stream⟩) (advanced d ⟨name, stream⟩ rest)
        (d.shutting ++ [.fetched .remote name (.ok stream)])

/-- What closing a delivery adds to the history, outcome by outcome. -/
inductive Closed (d : Delivery) : Except Fault Unit → Delivery → List Act → Prop
  | unshut {chunk : Chunk} {fault : Fault} : d.current = some chunk →
      Closed d (.error fault) { d with current := none } [.shut chunk.stream (.error fault)]
  | failed : d.stage = .failed → Closed d (.ok ()) { d with current := none } d.shutting
  | ended : d.stage ≠ .failed →
      Closed d (.ok ()) { d with current := none, pending := [], stage := .exhausted } d.shutting

/-- What a step of a caller adds to the history. -/
inductive Stepped (d : Delivery) : Delivery → List Act → Prop
  | asked {o : Except Fault Chunk} {d' : Delivery} {added : List Act} :
      Asked d o d' added → Stepped d d' added
  | closed {o : Except Fault Unit} {d' : Delivery} {added : List Act} :
      Closed d o d' added → Stepped d d' added
  | read (i : StreamId) (o : Except Fault Bytes) : Stepped d d [.read i o]
  | shut (i : StreamId) (o : Except Fault Unit) : Stepped d d [.shut i o]

section Watched

variable {D : Depots σ}

theorem next_asked (D : Depots σ) (x : Delivery × (σ × List Act)) :
    ∃ added, (next D.watched x).2.2.2 = x.2.2 ++ added ∧
      Asked x.1 (next D.watched x).1 (next D.watched x).2.1 added := by
  obtain ⟨d, x⟩ := x
  have hnext := next_next D.watched d x
  generalize next D.watched (d, x) = r at hnext ⊢
  obtain ⟨o, d', y⟩ := r
  cases hnext with
  | drained hdrained =>
    exact ⟨[], (List.append_nil _).symm, .drained (hasNext_eq_false_iff.mpr hdrained)⟩
  | @unshut name _ fault y hstage hpending hshut =>
    obtain ⟨chunk, hcurrent, hacts⟩ := shutCurrent_error_watched hshut
    exact ⟨_, (noteFailure_watched D name fault y).trans hacts, .unshut hstage hpending hcurrent⟩
  | @unfetched name _ fault _ y hstage hpending hshut hfetch =>
    refine ⟨_, (noteFailure_watched D name fault y).trans ?_, .unfetched hstage hpending⟩
    rw [Run.acts_of_watched hfetch, shutCurrent_ok_watched hshut, List.append_assoc]
  | @handed name _ _ _ y hstage hpending hshut hfetch =>
    refine ⟨_, ?_, .handed hstage hpending⟩
    show y.2 = _
    rw [Run.acts_of_watched hfetch, shutCurrent_ok_watched hshut, List.append_assoc]

theorem close_closed (D : Depots σ) (x : Delivery × (σ × List Act)) :
    ∃ added, (close D.watched x).2.2.2 = x.2.2 ++ added ∧
      Closed x.1 (close D.watched x).1 (close D.watched x).2.1 added := by
  obtain ⟨d, x⟩ := x
  rw [close_eq]
  rcases hshut : shutCurrent D.watched d x with ⟨fault | ⟨⟩, y⟩
  · obtain ⟨chunk, hcurrent, hacts⟩ := shutCurrent_error_watched hshut
    exact ⟨_, hacts, .unshut hcurrent⟩
  · refine ⟨d.shutting, shutCurrent_ok_watched hshut, ?_⟩
    show Closed d (.ok ()) (if d.stage = .failed then _ else _) d.shutting
    split
    next hstage => exact .failed hstage
    next hstage => exact .ended hstage

theorem Use.stepped {x y : Delivery × (σ × List Act)} (h : Use D.watched x y) :
    ∃ added, y.2.2 = x.2.2 ++ added ∧ Stepped x.1 y.1 added := by
  cases h with
  | next =>
    obtain ⟨added, hacts, hlist⟩ := next_asked D x
    exact ⟨added, hacts, .asked hlist⟩
  | close =>
    obtain ⟨added, hacts, hlist⟩ := close_closed D x
    exact ⟨added, hacts, .closed hlist⟩
  | read i size d w => exact ⟨_, rfl, .read i _⟩
  | shut i d w => exact ⟨_, rfl, .shut i _⟩

theorem holds_of_next {Holds : σ → StreamId → Text → Prop} (hD : D.Serves Holds) {d d' : Delivery}
    {x y : σ × List Act} {chunk : Chunk} (h : next D.watched (d, x) = (.ok chunk, d', y)) :
    Holds y.1 chunk.stream chunk.name := by
  have hnext := next_next D.watched d x
  rw [h] at hnext
  cases hnext with
  | handed _ _ _ hfetch =>
    simp only [Depots.watched, Run.watched, Prod.mk.injEq] at hfetch
    exact hD.note _ (hD.fetch (Prod.ext hfetch.1 (congrArg Prod.fst hfetch.2)))

end Watched

/-! ## 3. After the last chunk -/

theorem Asked.of_over {d d' : Delivery} {o : Except Fault Chunk} {added : List Act}
    (h : Asked d o d' added) (hover : d.hasNext = false) : d' = d ∧ added = [] := by
  cases h with
  | drained => exact ⟨rfl, rfl⟩
  | unshut hstage hpending | unfetched hstage hpending | handed hstage hpending =>
    rw [hasNext_iff.mpr ⟨hstage, by simp [hpending]⟩] at hover
    cases hover

theorem Closed.over_of_over {d d' : Delivery} {o : Except Fault Unit} {added : List Act}
    (h : Closed d o d' added) (hover : d.hasNext = false) : d'.hasNext = false := by
  rw [hasNext_eq_false_iff] at hover ⊢
  cases h with
  | unshut => exact hover
  | failed hstage => exact .inl hstage
  | ended => exact .inr rfl

theorem Closed.asked_eq {d d' : Delivery} {o : Except Fault Unit} {added : List Act}
    (h : Closed d o d' added) : Act.asked added = [] := by
  cases h with
  | unshut => rfl
  | failed | ended => exact asked_shutting d

theorem Stepped.of_over {d d' : Delivery} {added : List Act} (h : Stepped d d' added)
    (hover : d.hasNext = false) : d'.hasNext = false ∧ Act.asked added = [] := by
  cases h with
  | asked hlist =>
    obtain ⟨rfl, rfl⟩ := hlist.of_over hover
    exact ⟨hover, rfl⟩
  | closed hlist => exact ⟨hlist.over_of_over hover, hlist.asked_eq⟩
  | read | shut => exact ⟨hover, rfl⟩

/-- A delivery that has no next chunk will never have one, and asks for nothing. -/
theorem Uses.of_over {D : Depots σ} {x y : Delivery × (σ × List Act)} (h : Uses D.watched x y)
    (hover : x.1.hasNext = false) :
    y.1.hasNext = false ∧ Act.asked y.2.2 = Act.asked x.2.2 := by
  induction h with
  | refl => exact ⟨hover, rfl⟩
  | tail _ huse ih =>
    obtain ⟨added, hacts, hstep⟩ := huse.stepped
    obtain ⟨hover, hnone⟩ := hstep.of_over ih.1
    exact ⟨hover, by rw [hacts, Act.asked_append, hnone, List.append_nil, ih.2]⟩

/-! ## 4. The order of the plan -/

/-- The names asked for are the beginning of the plan. While there is a next chunk, those pending
    are the rest of it. -/
structure InOrder (names : List Text) (d : Delivery) (acts : List Act) : Prop where
  asked_prefix : Act.asked acts <+: names
  pending : d.hasNext = true → Act.asked acts ++ d.pending = names

namespace InOrder

variable {names : List Text} {d d' : Delivery} {acts added : List Act}

theorem pending_of_cons (h : InOrder names d acts) (hstage : d.stage ≠ .failed) {name : Text}
    {rest : List Text} (hpending : d.pending = name :: rest) :
    Act.asked acts ++ name :: rest = names := by
  rw [← hpending]
  exact h.pending (hasNext_iff.mpr ⟨hstage, by simp [hpending]⟩)

theorem of_asked {o : Except Fault Chunk} (h : InOrder names d acts) (hlist : Asked d o d' added) :
    InOrder names d' (acts ++ added) := by
  cases hlist with
  | drained => rwa [List.append_nil]
  | unshut =>
    refine ⟨by simpa using h.asked_prefix, fun hnext => ?_⟩
    exact absurd rfl (hasNext_iff.mp hnext).1
  | @unfetched name rest _ hstage hpending =>
    refine ⟨?_, fun hnext => absurd rfl (hasNext_iff.mp hnext).1⟩
    rw [← h.pending_of_cons hstage hpending]
    simp [asked_shutting]
  | @handed name rest _ hstage hpending =>
    have hnames := h.pending_of_cons hstage hpending
    refine ⟨?_, fun _ => ?_⟩
    · rw [← hnames]
      simp [asked_shutting]
    · simpa [asked_shutting, advanced] using hnames

theorem of_closed {o : Except Fault Unit} (h : InOrder names d acts) (hlist : Closed d o d' added) :
    InOrder names d' (acts ++ added) := by
  refine ⟨by simpa [hlist.asked_eq] using h.asked_prefix, fun hnext => ?_⟩
  rw [Act.asked_append, hlist.asked_eq, List.append_nil]
  cases hlist with
  | unshut => exact h.pending hnext
  | failed hstage => exact absurd hstage (hasNext_iff.mp hnext).1
  | ended => exact absurd rfl (hasNext_iff.mp hnext).2

theorem of_stepped (h : InOrder names d acts) (hstep : Stepped d d' added) :
    InOrder names d' (acts ++ added) := by
  cases hstep with
  | asked hlist => exact h.of_asked hlist
  | closed hlist => exact h.of_closed hlist
  | read | shut => exact ⟨by simpa using h.asked_prefix, by simpa using h.pending⟩

end InOrder

theorem inOrder_of_uses {D : Depots σ} {names : List Text} {w : σ} {x : Delivery × (σ × List Act)}
    (h : Uses D.watched (.ofNames names, (w, [])) x) : InOrder names x.1 x.2.2 := by
  induction h with
  | refl => exact ⟨List.nil_prefix, fun _ => rfl⟩
  | tail _ huse ih =>
    obtain ⟨added, hacts, hstep⟩ := huse.stepped
    rw [hacts]
    exact ih.of_stepped hstep

theorem Asked.exists_hasFailed {d d' : Delivery} {fault : Fault} {added : List Act}
    (h : Asked d (.error fault) d' added) (hnext : d.hasNext = true) :
    ∃ act ∈ added, act.hasFailed = true := by
  cases h with
  | drained hover =>
    rw [hnext] at hover
    cases hover
  | unshut => exact ⟨_, List.mem_singleton.mpr rfl, rfl⟩
  | unfetched => exact ⟨_, List.mem_append_right _ (List.mem_singleton.mpr rfl), rfl⟩

theorem Asked.over_of_hasFailed {d d' : Delivery} {o : Except Fault Chunk} {added : List Act}
    (h : Asked d o d' added) {act : Act} (hact : act ∈ added) (hfailed : act.hasFailed = true) :
    d'.hasNext = false := by
  cases h with
  | drained hover => exact hover
  | unshut | unfetched => exact hasNext_eq_false_iff.mpr (.inl rfl)
  | handed =>
    -- the live chunk was closed and the next one opened, so nothing failed
    rcases List.mem_append.mp hact with hact | hact
    · obtain ⟨i, rfl⟩ := eq_of_mem_shutting hact
      cases hfailed
    · obtain rfl := List.mem_singleton.mp hact
      cases hfailed

theorem InOrder.of_handed {names : List Text} {d d' : Delivery} {acts added : List Act}
    {chunk : Chunk} (h : InOrder names d acts) (hlist : Asked d (.ok chunk) d' added) :
    Act.asked acts ++ chunk.name :: d'.pending = names ∧
      added = d.shutting ++ [.fetched .remote chunk.name (.ok chunk.stream)] := by
  cases hlist with
  | handed hstage hpending => exact ⟨h.pending_of_cons hstage hpending, rfl⟩

/-- **Chunks are asked for in the order of the plan, none twice and none left out.** Whatever
    callers do with a delivery, the names asked for are the beginning of the plan. When it is asked
    for a chunk:

    * a chunk that is handed out is the one next to those asked for so far; its name was just asked
      for and its stream just opened, so whatever opening made true of the stream holds of the
      chunk;
    * if no chunk is handed out though there is a next one, an operation failed;
    * if an operation failed, nothing will ever be asked for any more. -/
theorem asked_in_order {D : Depots σ} {names : List Text} {w : σ} {x : Delivery × (σ × List Act)}
    (h : Uses D.watched (.ofNames names, (w, [])) x) :
    Act.asked x.2.2 <+: names ∧
    ∀ o y, next D.watched x = (o, y) → ∃ added, y.2.2 = x.2.2 ++ added ∧
      (∀ chunk, o = .ok chunk →
        Act.asked x.2.2 ++ chunk.name :: y.1.pending = names ∧
        added = x.1.shutting ++ [.fetched .remote chunk.name (.ok chunk.stream)] ∧
        ∀ Holds, D.Serves Holds → Holds y.2.1 chunk.stream chunk.name) ∧
      (∀ fault, o = .error fault → x.1.hasNext = true → ∃ act ∈ added, act.hasFailed = true) ∧
      ((∃ act ∈ added, act.hasFailed = true) → ∀ z, Uses D.watched y z →
        Act.asked z.2.2 = Act.asked y.2.2) := by
  have horder := inOrder_of_uses h
  refine ⟨horder.asked_prefix, fun o y hnext => ?_⟩
  obtain ⟨added, hacts, hlist⟩ := next_asked D x
  rw [hnext] at hacts hlist
  refine ⟨added, hacts, ?_, ?_, ?_⟩
  · rintro chunk rfl
    obtain ⟨hnames, hadded⟩ := horder.of_handed hlist
    exact ⟨hnames, hadded, fun Holds hD => holds_of_next hD hnext⟩
  · rintro fault rfl hmore
    exact hlist.exists_hasFailed hmore
  · rintro ⟨act, hact, hfailed⟩ z hz
    exact (hz.of_over (hlist.over_of_hasFailed hact hfailed)).2

end Delivery

/-! ### A rehearsal -/

namespace Rehearsal

/-- All that is published under the name is left to be read from the stream. -/
def Offers (r : Rehearsal) (i : StreamId) (name : Text) : Prop :=
  ∃ stream, r.streams[i]? = some stream ∧ Pairs.get? name r.remote.resources = some stream.left

theorem serves_offers : depots.Serves Offers where
  fetch {name r i r'} h := by
    change fetch .remote name r = _ at h
    unfold fetch at h
    simp only at h
    split at h
    · cases h
    split at h
    · cases h
    next content hcontent =>
      cases h
      exact ⟨_, List.getElem?_concat_length, hcontent⟩
  note _ h := h

/-- Three chunks, of which the second may not be opened. -/
def interrupted : Rehearsal where
  remote := {
    resources := [("a", [1]), ("b", [2]), ("c", [3])]
    failOpen := [("b", .io .general)] }

end Rehearsal

open Delivery in
/-- The first chunk is handed out, the second is asked for in vain, and the third never is. -/
theorem asked_in_order_interrupted :
    ∃ chunk x fault y,
      next Rehearsal.depots.watched (.ofNames ["a", "b", "c"], (Rehearsal.interrupted, [])) =
        (.ok chunk, x) ∧ chunk.name = "a" ∧ Rehearsal.Offers x.2.1 chunk.stream "a" ∧
      next Rehearsal.depots.watched x = (.error fault, y) ∧
      ∀ z, Uses Rehearsal.depots.watched y z → Act.asked z.2.2 = ["a", "b"] := by
  have hcheck : (next Rehearsal.depots.watched).passes (fun chunk x =>
      chunk.name = "a" && x.1.hasNext && (next Rehearsal.depots.watched x).1.toOption.isNone &&
        Act.asked (next Rehearsal.depots.watched x).2.2.2 = ["a", "b"])
      (.ofNames ["a", "b", "c"], (Rehearsal.interrupted, [])) = true := by
    decide +kernel
  obtain ⟨chunk, x, hfirst, hcheck⟩ := Run.exists_of_passes hcheck
  simp only [Bool.and_eq_true, decide_eq_true_eq] at hcheck
  obtain ⟨⟨⟨hname, hmore⟩, hfailed⟩, hasked⟩ := hcheck
  have hx := Relation.ReflTransGen.single
    (Use.next (D := Rehearsal.depots.watched)
      (.ofNames ["a", "b", "c"], (Rehearsal.interrupted, [])))
  rw [hfirst] at hx
  obtain ⟨-, hstart⟩ := asked_in_order (D := Rehearsal.depots)
    (x := (.ofNames ["a", "b", "c"], (Rehearsal.interrupted, []))) .refl
  obtain ⟨-, hnext⟩ := asked_in_order hx
  obtain ⟨_, -, hhanded, -, -⟩ := hstart _ _ hfirst
  rcases hsecond : next Rehearsal.depots.watched x with ⟨fault | chunk', y⟩
  · rw [hsecond] at hasked
    obtain ⟨_, -, -, hfault, hlast⟩ := hnext _ _ hsecond
    refine ⟨chunk, x, fault, y, hfirst, hname, ?_, hsecond, fun z hz => ?_⟩
    · rw [← hname]
      exact (hhanded chunk rfl).2.2 _ Rehearsal.serves_offers
    · rw [hlast (hfault fault rfl hmore) z hz, hasked]
  · rw [hsecond] at hfailed
    cases hfailed

/-! ## 5. Callers -/

namespace Usage.DeliveryCaller

variable {D : Depots σ}

open Delivery

/-- What the steps of a caller come to for the delivery and the places. -/
def Drives (D : Depots σ) (x y : DeliveryCaller × σ) : Prop :=
  Uses D (x.1.delivery, x.2) (y.1.delivery, y.2)

theorem Drives.refl (x : DeliveryCaller × σ) : Drives D x x := Relation.ReflTransGen.refl

theorem Drives.trans (x y z : DeliveryCaller × σ) (hxy : Drives D x y) (hyz : Drives D y z) :
    Drives D x z :=
  Relation.ReflTransGen.trans hxy hyz

theorem takeNext_drives : Run.Within (Drives D) (takeNext D) :=
  .bind Drives.trans (fun x => .single (.next (x.1.delivery, x.2)))
    fun _ => .bind Drives.trans Drives.refl fun _ => .pure Drives.refl _

/-- **What a caller of a delivery does is a use of it**, whichever step it is, loops included. -/
theorem step_drives (step : DeliveryStep) : Run.Within (Drives D) (DeliveryCaller.step D step) := by
  cases step with
  | next => exact .bind Drives.trans takeNext_drives fun _ => .pure Drives.refl _
  | hasNext => exact Drives.refl
  | close =>
    exact .bind Drives.trans (fun x => .single (.close (x.1.delivery, x.2))) fun _ =>
      .pure Drives.refl _
  | drain =>
    rintro ⟨c, w⟩
    refine Run.Within.bind Drives.trans (.forEach Drives.refl Drives.trans takeNext_drives ?_ _ _ _)
      (fun _ => .pure Drives.refl _) (c, w)
    intro k chunk
    refine .bind Drives.trans (fun x => ?_) fun _ => .pure Drives.refl _
    exact .single (.read chunk.stream none x.1.delivery x.2)
  | chunk i step =>
    rintro ⟨c, w⟩
    simp only [DeliveryCaller.step]
    cases itemAt? c.chunks i with
    | none => exact Drives.refl _
    | some chunk =>
      exact onChunk_within (R := fun u v => Uses D (c.delivery, u) (c.delivery, v))
        (fun _ => .refl) (fun _ _ _ => .trans) (fun i size u => .single (.read i size _ u))
        (fun i u => .single (.shut i _ u)) chunk step w

end Usage.DeliveryCaller

end IndexChain
