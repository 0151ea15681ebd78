import IndexChain.Proofs.Plan
import IndexChain.Proofs.Succession

/-!
# Progress — what successive sessions deliver

An index only grows: each time it is published its counter is the last one or a greater one. A copy
that is brought up to date again and again, whenever chunks suffice, is handed **every chunk between
its first counter and the newest one, once and in order**, however often and after however many
publications it is done.

* One session delivers the chunks from the copy's counter to the published one
  (`makes_incremental`): it plans from the manifest that the copy holds, hands over all that is
  planned, and leaves the published manifest in the copy.
* What it left is what the next one plans from, so the ranges go on where they ended; the induction
  is on the sessions, with the copy's counter carried along.

The places do not fail (`Depots.Reliable`), and neither do the consumers of the chunks (`Accepts`).
-/

namespace IndexChain

variable {σ : Type}

namespace Session

/-! ## 1. Rounds -/

/-- A consumer that succeeds with every chunk that was just handed out; it leaves the remote place
    alone and both places usable. -/
def Accepts (D : Depots σ) (view : σ → Side → Text → Option Bytes) (ready : Side → σ → Prop)
    (body : Nat → Chunk → Run σ Unit) : Prop :=
  ∀ k d d' w w' chunk, (∀ side, ready side w) → Delivery.next D (d, w) = (.ok chunk, d', w') →
    ∃ w'', body k chunk w' = (.ok (), w'') ∧
      (∀ name, view w'' .remote name = view w' .remote name) ∧ ∀ side, ready side w''

/-- Hands all that is planned to a consumer and records the update. The answer is what was handed
    over. -/
def carryOut (D : Depots σ) (now : Moment) (body : Nat → Chunk → Run σ Unit) :
    Run (Session × σ) (List Chunk) :=
  during D now (consumeAll D fun k chunk => onDepots (body k chunk >>= fun _ => pure chunk))

/-- A session from its opening to its end. -/
structure Round (σ : Type) where
  /-- What the index said about itself then. -/
  published : Manifest
  /-- What was handed over. -/
  delivered : Except Fault (List Chunk)
  /-- The places after the session. -/
  places : σ

/-- The rounds that chunks suffice for, on places that do not fail and offer what is planned. -/
inductive Makes (view : σ → Side → Text → Option Bytes) (w : σ) : Round σ → Prop
  | round {D : Depots σ} {ready : Side → σ → Prop} {comment : Option Text} {now : Moment}
      {body : Nat → Chunk → Run σ Unit} {s : Session} {w₁ : σ} (hD : D.Reliable view ready)
      (hready : ∀ side, ready side w) (hcomment : ∀ c ∈ comment.getD [], c.val < 256)
      (hbody : Accepts D view ready body) (hs : establish D true comment w = (.ok s, w₁))
      (hincremental : s.plan.isIncremental = true)
      (hoffered : ∀ name ∈ s.plan.chunkNames, (view w .remote name).isSome = true) :
      Makes view w ⟨s.published, (carryOut D now body (s, w₁)).1, (carryOut D now body (s, w₁)).2.2⟩

/-- One round after another. In between anything may happen that leaves the copy's manifest alone:
    the index may be published again, other streams and handles may be used. -/
inductive Rounds (view : σ → Side → Text → Option Bytes) : σ → List (Round σ) → Prop
  | none (w : σ) : Rounds view w []
  | round {w w' : σ} {r : Round σ} {rounds : List (Round σ)} (h : Makes view w r)
      (hcopy : view w' .copy Manifest.resourceName = view r.places .copy Manifest.resourceName)
      (hrest : Rounds view w' rounds) : Rounds view w (r :: rounds)

/-- The copy holds a manifest with a counter. -/
def CopyAt (view : σ → Side → Text → Option Bytes) (w : σ) (n : Int) : Prop :=
  ∃ content m, view w .copy Manifest.resourceName = some content ∧
    Manifest.ofPayload (.bytes content) = .ok m ∧ m.lastIncremental = some n

section Reliable

variable {D : Depots σ} {view : σ → Side → Text → Option Bytes} {ready : Side → σ → Prop}

/-! ## 2. One round -/

/-- A session on places that do not fail has read the manifest that the copy holds. -/
theorem Established.copy_eq (hD : D.Reliable view ready) {comment : Option Text} {w w' : σ}
    {s : Session} (hs : Established D true comment w s w') (hready : ready .copy w)
    {content : Bytes} {m : Manifest} (hcontent : view w .copy Manifest.resourceName = some content)
    (hm : Manifest.ofPayload (.bytes content) = .ok m) : s.copy = some m := by
  obtain ⟨stream, w₁, w₂, w₃, hfetch, hload, hcopy, -⟩ := hs.reads
  have hkeeps : Depots.Keeps view ready w w₂ :=
    hD.keeps.trans _ _ _ ((hD.keeps.fetch _ _).of_eq hfetch)
      ((loadManifest_within hD.keeps stream).of_eq hload)
  obtain ⟨stream', u₁, u₂, hfetch', hload', -⟩ :=
    fetch_manifest_reliable hD (hkeeps.2 .copy hready) ((hkeeps.1 _ _).trans hcontent) hm
  have hloaded : loadCopy D w₂ = (.ok (some m), u₂) :=
    loadCopy_eq_ok_iff.mpr (.present hfetch' hload')
  rw [if_pos rfl, hloaded] at hcopy
  exact (Except.ok.inj (Prod.mk.inj hcopy).1).symm

/-- What a session read of the remote place came from some content. -/
theorem Established.exists_payload {hasCopy : Bool} {comment : Option Text} {w w' : σ} {s : Session}
    (hs : Established D hasCopy comment w s w') :
    ∃ content, Manifest.ofPayload (.bytes content) = .ok s.published := by
  obtain ⟨stream, w₁, w₂, w₃, -, hload, -, -⟩ := hs.reads
  obtain ⟨content, -, hm⟩ := loadManifest_eq_ok_iff.mp hload
  exact ⟨content, hm⟩

/-- The next chunk that is offered is handed out. -/
theorem next_reliable (hD : D.Reliable view ready) {d : Delivery} {w : σ} {name : Text}
    {rest : List Text} (hready : ready .remote w) (hstage : d.stage ≠ .failed)
    (hpending : d.pending = name :: rest) (hoffered : (view w .remote name).isSome = true) :
    ∃ stream d' w', Delivery.next D (d, w) = (.ok ⟨name, stream⟩, d', w') ∧ d'.pending = rest ∧
      d'.stage ≠ .failed ∧ Depots.Keeps view ready w w' := by
  obtain ⟨w₁, hshut⟩ := shutCurrent_reliable hD d hready
  have hkeeps := (Delivery.shutCurrent_within hD.keeps d).of_eq hshut
  obtain ⟨content, hcontent⟩ := Option.isSome_iff_exists.mp hoffered
  obtain ⟨stream, w₂, -, -, hfetch, -⟩ :=
    hD.present (hkeeps.2 _ hready) ((hkeeps.1 _ _).trans hcontent)
  have hnext : Delivery.next D (d, w) =
      (.ok ⟨name, stream⟩, d.advanced ⟨name, stream⟩ rest, Delivery.noteOpened D d name w₂) := by
    unfold Delivery.next
    simp only [if_neg hstage, hpending, Delivery.dropCurrent_eq, hshut, hfetch]
    rfl
  refine ⟨stream, _, _, hnext, rfl, ?_, (Delivery.next_within hD.keeps).of_eq hnext⟩
  unfold Delivery.advanced
  cases rest <;> simp

/-- All chunks that are pending are handed to the consumer, in order. -/
theorem forEach_reliable (hD : D.Reliable view ready) {body : Nat → Chunk → Run σ Unit}
    (hbody : Accepts D view ready body) (s : Session) :
    ∀ (fuel k : Nat) (acc : List Chunk) (d : Delivery) (w : σ), d.pending.length < fuel →
      d.stage ≠ .failed → (∀ side, ready side w) →
      (∀ name ∈ d.pending, (view w .remote name).isSome = true) →
      ∃ chunks d' w', Run.forEach (next D 0)
          (fun k chunk => onDepots (body k chunk >>= fun _ => pure chunk)) fuel k acc
          (s.passing d, w) = (.ok (acc.reverse ++ chunks), s.passing d', w') ∧
        chunks.map (·.name) = d.pending ∧ ∀ side, ready side w' := by
  intro fuel
  induction fuel with
  | zero => exact fun _ _ _ _ hfuel => absurd hfuel (Nat.not_lt_zero _)
  | succ fuel ih =>
    intro k acc d w hfuel hstage hready hoffered
    cases hpending : d.pending with
    | nil =>
      have hnext : Delivery.next D (d, w) = (.error .exhausted, d, w) := by
        unfold Delivery.next
        simp only [if_neg hstage, hpending]
      refine ⟨[], d, w, ?_, rfl, hready⟩
      rw [Run.forEach_of_exhausted (next_passing_eq_iff.mpr ⟨d, w, hnext, rfl⟩), List.append_nil]
    | cons name rest =>
      obtain ⟨stream, d', w', hnext, hrest, hstage', hkeeps⟩ :=
        next_reliable hD (hready .remote) hstage hpending (hoffered name (by simp [hpending]))
      obtain ⟨w'', hdone, hremote, hready'⟩ := hbody k d d' w w' ⟨name, stream⟩ hready hnext
      have hconsumed : onDepots (body k ⟨name, stream⟩ >>= fun _ => pure (⟨name, stream⟩ : Chunk))
          (s.passing d', w') = (.ok ⟨name, stream⟩, s.passing d', w'') :=
        onDepots_eq_iff.mpr ⟨w'', by rw [Run.bind_of_ok hdone]; rfl, rfl⟩
      -- what is still to come is offered as before
      have hoffered' : ∀ name ∈ d'.pending, (view w'' .remote name).isSome = true := by
        intro other hother
        rw [hremote, hkeeps.1]
        exact hoffered other (by rw [hpending]; exact List.mem_cons_of_mem name (hrest ▸ hother))
      have hfuel' : d'.pending.length < fuel := by
        have hlength := length_pending_of_next hnext
        omega
      obtain ⟨chunks, d'', w₃, hloop, hnames, hready₃⟩ :=
        ih (k + 1) (⟨name, stream⟩ :: acc) d' w'' hfuel' hstage' hready' hoffered'
      refine ⟨⟨name, stream⟩ :: chunks, d'', w₃, ?_, ?_, hready₃⟩
      · rw [Run.forEach_of_ok (next_passing_eq_iff.mpr ⟨d', w', hnext, rfl⟩) hconsumed, hloop,
          List.reverse_cons, List.append_assoc, List.singleton_append]
      · rw [List.map_cons, hnames, hrest]

/-- A session that chunks, or the whole index, are offered for is carried out: all that is planned
    is handed over in order, and the copy holds the published manifest afterwards. -/
theorem carryOut_reliable (hD : D.Reliable view ready) {body : Nat → Chunk → Run σ Unit}
    (hbody : Accepts D view ready body) {s : Session} {w : σ} {now : Moment} {content : Bytes}
    (hs : s.IsFresh) (hcopy : s.hasCopy = true) (hready : ∀ side, ready side w)
    (hoffered : ∀ name ∈ s.plan.chunkNames, (view w .remote name).isSome = true)
    (hcontent : s.published.entries.toBytes? s.comment now = some content) :
    ∃ chunks s' w', carryOut D now body (s, w) = (.ok chunks, s', w') ∧
      chunks.map (·.name) = s.plan.chunkNames ∧
      view w' .copy Manifest.resourceName = some content := by
  have hstage : (Delivery.ofNames s.plan.chunkNames).stage ≠ .failed := by
    unfold Delivery.ofNames
    simp only
    split <;> simp
  obtain ⟨chunks, d, w₁, hloop, hnames, hready₁⟩ := forEach_reliable hD hbody s
    (s.plan.chunkNames.length + 1) 0 [] (.ofNames s.plan.chunkNames) w (Nat.lt_succ_self _) hstage
    hready hoffered
  have hconsume : consumeAll D (fun k chunk => onDepots (body k chunk >>= fun _ => pure chunk))
      (s, w) = (.ok chunks, s.passing d, w₁) := by
    simp only [consumeAll, iterate_fresh hs]
    exact hloop
  obtain ⟨s', w', hfinish, hstored, -⟩ := finish_reliable hD
    (show (s.passing d).closed = false from hs.closed)
    (show (s.passing d).hasCopy = true from hcopy) hready₁
    (show (s.passing d).published.entries.toBytes? (s.passing d).comment now = some content
      from hcontent)
  exact ⟨chunks, s', w', during_eq_ok_iff.mpr ⟨_, hconsume, hfinish⟩, hnames, hstored⟩

end Reliable

variable {view : σ → Side → Text → Option Bytes}

/-- **One round delivers the chunks from the copy's counter to the published one**, and leaves the
    copy there. -/
theorem makes_incremental {w : σ} {r : Round σ} (h : Makes view w r) {current : Int}
    (hcurrent : CopyAt view w current) :
    ∃ latest chunks, r.published.lastIncremental = some latest ∧ r.delivered = .ok chunks ∧
      chunks.map (·.name) = (Plan.counters (current + 1) latest).map chunkName ∧
      CopyAt view r.places latest := by
  cases h with
  | @round D ready comment now body s w₁ hD hready hcomment hbody hs hincremental hoffered =>
    obtain ⟨content, m, hcontent, hm, hlast⟩ := hcurrent
    have hestablished := establish_eq_ok_iff.mp hs
    have hkeeps : Depots.Keeps view ready w w₁ :=
      (establish_within hD.keeps true comment).of_eq hs
    have hdecided := hestablished.plan_eq
    rw [hestablished.copy_eq hD (hready .copy) hcontent hm] at hdecided
    obtain ⟨payload, hpayload⟩ := hestablished.exists_payload
    obtain ⟨stored, hstored⟩ := Entries.exists_toBytes? s.published.entries now hcomment
    obtain ⟨chunks, s', w', hcarried, hnames, hcopied⟩ := carryOut_reliable hD hbody
      hestablished.isFresh hestablished.hasCopy_eq (fun side => hkeeps.2 side (hready side))
      (fun name hname => by rw [hkeeps.1]; exact hoffered name hname)
      (show s.published.entries.toBytes? s.comment now = some stored by
        rw [hestablished.comment_eq, hstored])
    -- chunks suffice, so the plan is the range between the two counters
    obtain ⟨current', latest, hcurrent', hlatest, hplan⟩ :
        ∃ current' latest, m.lastIncremental = some current' ∧
          s.published.lastIncremental = some latest ∧
          s.plan = .incremental (current' + 1) latest := by
      cases hchosen : s.plan with
      | full reason =>
        rw [hchosen] at hincremental
        cases hincremental
      | incremental first last =>
        have h := Plan.chosen_of_decide hdecided
        rw [hchosen] at h
        cases h with
        | incremental _ hcurrent' hlatest _ => exact ⟨_, _, hcurrent', hlatest, rfl⟩
    obtain rfl : current' = current := Option.some.inj (hcurrent'.symm.trans hlast)
    refine ⟨latest, chunks,
      hlatest, by rw [hcarried], by rw [hnames, hplan]; rfl, stored, s.published, ?_,
      Manifest.ofPayload_of_ofPayload hpayload hstored, hlatest⟩
    rw [hcarried]
    exact hcopied

/-! ## 3. All rounds -/

/-- **Successive sessions deliver every chunk once and in order.** A copy stands at a counter, and
    is brought up to date any number of times against publications whose counters do not decrease.
    All rounds succeed; what they deliver, put together, are the chunks from behind the first
    counter to the last one; and after each round the copy stands at the counter that was
    published. -/
theorem rounds_deliver_consecutively {w : σ} {rounds : List (Round σ)}
    (hrounds : Rounds view w rounds) {first : Int} (hfirst : CopyAt view w first)
    {counters : List Int}
    (hcounters : rounds.map (·.published.lastIncremental) = counters.map some)
    (hgrows : List.IsChain (· ≤ ·) (first :: counters)) :
    ∃ delivered : List (List Chunk), rounds.map (·.delivered) = delivered.map .ok ∧
      delivered.flatten.map (·.name) =
        (Plan.counters (first + 1) (counters.getLastD first)).map chunkName ∧
      (delivered.flatten.map (·.name)).Nodup ∧
      List.Forall₂ (fun r n => CopyAt view r.places n) rounds counters := by
  suffices h : ∃ delivered : List (List Chunk), rounds.map (·.delivered) = delivered.map .ok ∧
      delivered.flatten.map (·.name) =
        (Plan.counters (first + 1) (counters.getLastD first)).map chunkName ∧
      List.Forall₂ (fun r n => CopyAt view r.places n) rounds counters ∧
      first ≤ counters.getLastD first by
    obtain ⟨delivered, hdelivered, hnames, hplaces, -⟩ := h
    refine ⟨delivered, hdelivered, hnames, ?_, hplaces⟩
    rw [hnames]
    exact (Plan.nodup_counters _ _).map chunkName_injective
  induction hrounds generalizing first counters with
  | none w =>
    obtain rfl : counters = [] := List.map_eq_nil_iff.mp hcounters.symm
    exact ⟨[], rfl, by simp [Plan.counters], .nil, Int.le_refl _⟩
  | @round w w' r rounds hmakes hcopy hrest ih =>
    obtain ⟨latest, chunks, hlatest, hdelivered, hnames, hplaces⟩ := makes_incremental hmakes hfirst
    cases counters with
    | nil => cases hcounters
    | cons n counters =>
      obtain ⟨hn, hcounters'⟩ := List.cons.inj hcounters
      obtain rfl : latest = n := Option.some.inj (hlatest.symm.trans hn)
      obtain ⟨hle, hgrows⟩ := List.isChain_cons_cons.mp hgrows
      have hnext : CopyAt view w' latest := by
        obtain ⟨content, m, hcontent, hm⟩ := hplaces
        exact ⟨content, m, hcopy.trans hcontent, hm⟩
      obtain ⟨delivered, hrestDelivered, hrestNames, hrestPlaces, hlast⟩ :=
        ih hnext hcounters' hgrows
      refine ⟨chunks :: delivered, ?_, ?_, .cons hplaces hrestPlaces, ?_⟩
      · rw [List.map_cons, List.map_cons, hdelivered, hrestDelivered]
      · -- the range of this round goes on where the one before it ended
        rw [List.flatten_cons, List.map_append, hnames, hrestNames, ← List.map_append,
          Plan.counters_append (by omega) hlast, List.getLastD_cons]
      · rw [List.getLastD_cons]
        exact Int.le_trans hle hlast

end Session

namespace Rehearsal

/-- Reads a chunk to its end. -/
def reading (_ : Nat) (chunk : Chunk) : Run Rehearsal Unit :=
  chunk.read depots none >>= fun _ => pure ()

/-- What was just opened can be read. -/
theorem read_of_fetch {r r' : Rehearsal} (hr : r.IsUnscripted) {side : Side} {name : Text}
    {stream : StreamId} (h : fetch side name r = (.ok stream, r')) :
    ∃ content, (read stream none r').1 = .ok content := by
  cases hholds : r.holds side name with
  | none =>
    have hmissing : fetch side name r = (.error (.io .notFound name), r) := by
      unfold holds at hholds
      simp only [fetch, hr.failOpen side, hholds, Pairs.get?]
    rw [hmissing] at h
    cases h
  | some content =>
    rw [fetch_of_holds hr hholds] at h
    obtain ⟨rfl, rfl⟩ := Prod.mk.inj h |>.imp Except.ok.inj id
    exact ⟨content, read_withStream r side name content⟩

theorem reading_accepts : Session.Accepts depots holds (fun _ => IsUnscripted) reading := by
  intro k d d' w w' chunk hready hnext
  have hlist := Delivery.next_next depots d w
  rw [hnext] at hlist
  cases hlist with
  | @handed name rest stream w₁ _ _ _ hshut hfetch =>
    have hw₁ : w₁.IsUnscripted :=
      ((Delivery.shutCurrent_within reliable.keeps d).of_eq hshut).2 .remote (hready .remote)
    have hw' : w'.IsUnscripted := ((fetch_keeps .remote name).of_eq hfetch).2 .remote hw₁
    obtain ⟨content, hread⟩ := read_of_fetch hw₁ hfetch
    have hkept := read_keeps stream none w'
    refine ⟨(read stream none w').2, ?_, hkept.1 .remote, fun side => hkept.2 side hw'⟩
    exact Run.bind_of_ok (Prod.ext hread rfl)

/-- A round with a consumer that reads every chunk, if chunks suffice and are offered. -/
def attempt (w : Rehearsal) : Option (Session.Round Rehearsal) :=
  match Session.establish depots true none w with
  | (.error _, _) => none
  | (.ok s, w₁) =>
    if s.plan.isIncremental && s.plan.chunkNames.all fun name => (w.holds .remote name).isSome then
      some ⟨s.published, (Session.carryOut depots .earliest reading (s, w₁)).1,
        (Session.carryOut depots .earliest reading (s, w₁)).2.2⟩
    else none

theorem makes_of_attempt {w : Rehearsal} (hw : w.IsUnscripted) {r : Session.Round Rehearsal}
    (h : attempt w = some r) : Session.Makes holds w r := by
  unfold attempt at h
  rcases hs : Session.establish depots true none w with ⟨fault | s, w₁⟩
  · rw [hs] at h
    cases h
  · simp only [hs] at h
    split at h
    · rename_i hchunks
      obtain ⟨hincremental, hoffered⟩ := Bool.and_eq_true_iff.mp hchunks
      obtain rfl := Option.some.inj h
      exact .round reliable (fun _ => hw) (by simp) reading_accepts hs hincremental
        (List.all_eq_true.mp hoffered)
    · cases h

/-- The manifest of an index at a counter that offers some chunks. -/
def manifestAt (counter : Text) (markers : List Text) : Bytes :=
  let markerOf (marker : Text) : Text := "\nnexus.index.incremental-" ++ marker ++ "=" ++ marker
  let fields : Text := "nexus.index.id=central\nnexus.index.timestamp=20240115103000.123 +0000\n" ++
    "nexus.index.chain-id=c1\nnexus.index.last-incremental="
  (Text.toLatin1? (fields ++ counter ++ markers.flatMap markerOf)).getD []

/-- A copy at counter 7, and the index at counter 8. -/
def firstPublished : Rehearsal := renewed {
  remote := { resources := [(Manifest.resourceName, manifestAt "8" ["8"]), (chunkName 8, [1])] }
  copy := { resources := [(Manifest.resourceName, manifestAt "7" [])] } }

/-- The index at counter 10, and a copy that some places hold. -/
def thenPublished (w : Rehearsal) : Rehearsal := renewed {
  remote := { resources := [(Manifest.resourceName, manifestAt "10" ["9", "10"]),
    (chunkName 9, [2]), (chunkName 10, [3])] }
  copy := w.copy }

open Session in
/-- Two sessions bring a copy from counter 7 to 8 and then to 10. -/
theorem rounds_deliver_consecutively_twice :
    ∃ r₁ r₂ : Round Rehearsal, Rounds holds firstPublished [r₁, r₂] ∧
    CopyAt holds firstPublished 7 ∧
      ∃ delivered : List (List Chunk), [r₁.delivered, r₂.delivered] = delivered.map .ok ∧
        delivered.flatten.map (·.name) = [chunkName 8, chunkName 9, chunkName 10] ∧
        CopyAt holds r₁.places 8 ∧ CopyAt holds r₂.places 10 := by
  have hrun : ((attempt firstPublished).any fun r₁ =>
      (attempt (thenPublished r₁.places)).any fun r₂ =>
        r₁.published.lastIncremental == some 8 && r₂.published.lastIncremental == some 10) =
          true := by
    decide +kernel
  have hread : (Manifest.ofPayload (.bytes (manifestAt "7" []))).toOption.any (fun m =>
      m.lastIncremental == some 7) = true := by
    decide +kernel
  obtain ⟨r₁, h₁, hrun⟩ := (Option.any_eq_true _ _).mp hrun
  obtain ⟨r₂, h₂, hrun⟩ := (Option.any_eq_true _ _).mp hrun
  simp only [Bool.and_eq_true, beq_iff_eq] at hrun
  have hsecond : Rounds holds (thenPublished r₁.places) [r₂] :=
    .round (makes_of_attempt (isUnscripted_renewed _) h₂) rfl (.none r₂.places)
  have hcopied : holds (thenPublished r₁.places) .copy Manifest.resourceName =
      holds r₁.places .copy Manifest.resourceName := rfl
  have hrounds : Rounds holds firstPublished [r₁, r₂] :=
    .round (makes_of_attempt (isUnscripted_renewed _) h₁) hcopied hsecond
  have hfirst : CopyAt holds firstPublished 7 := by
    rcases hm : Manifest.ofPayload (.bytes (manifestAt "7" [])) with fault | m
    · simp [hm, Except.toOption] at hread
    · simp only [hm, Except.toOption, Option.any_some, beq_iff_eq] at hread
      exact ⟨_, m, rfl, hm, hread⟩
  obtain ⟨delivered, hdelivered, hnames, -, hplaces⟩ :=
    @rounds_deliver_consecutively _ _ _ _ hrounds 7 hfirst [8, 10]
      (by simp only [List.map_cons, List.map_nil, hrun.1, hrun.2]) (by decide)
  refine ⟨r₁, r₂, hrounds, hfirst, delivered, hdelivered, hnames, ?_⟩
  cases hplaces with
  | cons hplaces₁ hrest =>
    cases hrest with
    | cons hplaces₂ => exact ⟨hplaces₁, hplaces₂⟩

end Rehearsal

end IndexChain
