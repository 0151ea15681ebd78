import IndexChain.Proofs.Foresight
import IndexChain.Proofs.Hindrance

/-!
# Stopping — why copying fails

Copying asks for one chunk after the other, stores each, and records the update in the end. All
handles stay open until then, and what was read of a stream that was just opened is there. That
leaves three reasons to fail (`Stops`): **a planned chunk cannot be opened, something is in the way
of storing a planned name, or the failure is none of those that are reported** (`copyAll_stops`).

What is in the way was there before the first chunk was asked for, since storing some names puts
nothing in the way of others (`Alike`). So it is known beforehand, and if something is in the way
copying does not succeed.
-/

namespace IndexChain

open Workspace (Alike Keeps Reads IsAside isAside_complaints isOfStore depots)

namespace Command

variable {remote target copy : HandleId} {R L : Location} {w w' w'' : Workspace} {s t : Session}
    {now : Moment}
  {fault : Fault}

/-! ## 1. Reasons to stop -/

/-- Why copying what was planned fails. -/
inductive Stops (L : Location) (w : Workspace) (plan : Plan) : Fault → Prop
  /-- A chunk cannot be opened. -/
  | unopened {name : Text} {cause : Fault} (hname : name ∈ plan.chunkNames)
      (hcause : cause.isIo = true) : Stops L w plan (.chunkUnavailable name (some cause))
  /-- Something is in the way of storing a name. -/
  | hindered {name : Text} {fault : Fault}
      (hname : name ∈ plan.chunkNames ++ [Manifest.resourceName])
      (hfault : w.hindrance? L name = some fault) : Stops L w plan fault
  /-- Something that is not reported. -/
  | other {fault : Fault} (hfault : isReported fault = false) : Stops L w plan fault

/-- What a store tells is reported if it is a failure of input or output. -/
theorem isReported_of_isOfStore (h : isOfStore fault = true) : isReported fault = fault.isIo := by
  unfold isReported
  rw [Workspace.phase?_of_isOfStore h]
  exact Bool.or_false _

theorem isIo_of_isReported (h : isOfStore fault = true) (hreported : isReported fault = true) :
    fault.isIo = true := by
  rwa [isReported_of_isOfStore h] at hreported

/-! ## 2. One chunk -/

theorem locationOf?_of_open {h : HandleId} (hopen : w.handles[h]? = some { location := L }) :
    w.locationOf? h = some L := by
  unfold Workspace.locationOf?
  rw [hopen]
  rfl

/-- Asking for a chunk fails of its file. -/
theorem next_stops {d d' : Delivery} (hopen : w.handles[remote]? = some { location := R })
    (h : Delivery.next (depots remote (some copy)) (d, w) = (.error fault, d', w'))
    (hne : fault ≠ .exhausted) :
    (∃ name ∈ d.pending, ∃ cause, cause.isIo = true ∧ fault = .chunkUnavailable name (some cause)) ∨
      isReported fault = false := by
  have hnext := Delivery.next_next (depots remote (some copy)) d w
  rw [h] at hnext
  generalize ho : (Except.error fault : Except Fault Chunk) = o at hnext
  cases hnext with
  | drained =>
    cases ho
    exact absurd rfl hne
  | unshut _ _ hshut =>
    have hok := @shutCurrent_ok remote (some copy) d w
    rw [hshut] at hok
    cases hok
  | @unfetched name rest cause w₁ _ _ hpending hshut hfetch =>
    cases ho
    have hreads :=
      (Delivery.shutCurrent_within (Workspace.stayWithin_reads remote (some copy)) d).of_eq hshut
    rw [← hreads.handles] at hopen
    have hfetched := Workspace.fetched hopen name
    rw [show Workspace.fetch remote name w₁ = (.error cause, _) from hfetch] at hfetched
    cases hfetched with
    | failed hcontent =>
      unfold Delivery.switchFault
      split
      · next hio => exact .inl ⟨name, hpending ▸ List.mem_cons_self, cause, hio, rfl⟩
      · next hio =>
        rw [isReported_of_isOfStore (Workspace.isOfStore_of_contentIn hcontent)]
        exact .inr (Bool.eq_false_iff.mpr hio)
  | handed => cases ho

/-- **A chunk that was opened is copied, unless something is in its way.** -/
theorem copyChunk_of_open {chunk : Chunk} {stream : Workspace.Stream} (hname : chunk.name.IsPlain)
    (hopen : w.handles[target]? = some { location := L })
    (hs : w.streams[chunk.stream]? = some stream) (hstream : stream.closed = false) :
    (∃ fault w', copyChunk (depots remote (some copy)) target chunk w = (.error fault, w') ∧
        w.hindrance? L chunk.name = some fault) ∨
      w.hindrance? L chunk.name = none ∧
        ∃ w', copyChunk (depots remote (some copy)) target chunk w = (.ok (), w') ∧
        Alike L w w' := by
  have hread (u : Workspace) (hu : u.streams = w.streams) :
      ∃ bytes, (Workspace.read chunk.stream none u).1 = .ok bytes :=
    Workspace.read_of_open (hu ▸ hs) hstream
  rcases Workspace.save_of_open hname hopen (Workspace.read_reads chunk.stream none) hread with
    ⟨fault, w', hsave, hhindrance⟩ | ⟨hfree, w', hsave, halike⟩
  · exact .inl ⟨fault, w', Run.bind_of_error hsave, hhindrance⟩
  · have hprinted : Alike L w' (Workspace.print ("Fetched " ++ chunk.name) w').2 :=
      .of_same L rfl rfl rfl
    exact .inr ⟨hfree, _, Run.bind_of_ok hsave, halike.trans hprinted⟩

/-- No complaint is made about a chunk. -/
theorem copyChunk_keeps (remote copy target : HandleId) (chunk : Chunk) :
    Run.Within (Keeps Workspace.complaints) (copyChunk (depots remote (some copy)) target chunk) :=
  .bind Keeps.trans
    (Workspace.save_keeps isAside_complaints target chunk.name
      ((Workspace.stayWithin_keeps isAside_complaints remote (some copy)).read chunk.stream none))
    fun _ _ => rfl

/-! ## 3. All chunks -/

/-- Before a chunk is asked for: nothing was in the way of those that were handed out, and nothing
    has changed for the others. -/
structure Underway (L : Location) (w : Workspace) (done : List Text) (d : Delivery)
    (u : Workspace) : Prop extends Alike L w u where
  complaints : Keeps Workspace.complaints w u
  notFailed : d.stage ≠ .failed
  free : ∀ name ∈ done, w.hindrance? L name = none

section Underway

variable {plan : Plan} {done : List Text} {d d' : Delivery} {u v v' : Workspace} {chunk : Chunk}

theorem reads_of_next {o : Except Fault Chunk}
    (h : Delivery.next (depots remote (some copy)) (d, u) = (o, d', v)) : Reads u v :=
  (Delivery.next_within (Workspace.stayWithin_reads remote (some copy))).of_eq h

/-- **What is handed out is a name of the plan, and it is copied unless something is in its
way.** -/
theorem Underway.copies (hu : Underway L w done d u) (hplan : done ++ d.pending = plan.chunkNames)
    (hR : w.handles[remote]? = some { location := R })
    (hL : w.handles[target]? = some { location := L })
    (hnext : Delivery.next (depots remote (some copy)) (d, u) = (.ok chunk, d', v)) :
    chunk.name ∈ plan.chunkNames ∧ d'.stage ≠ .failed ∧ Alike L w v ∧
      ((∃ fault v', copyChunk (depots remote (some copy)) target chunk v = (.error fault, v') ∧
          w.hindrance? L chunk.name = some fault) ∨
        w.hindrance? L chunk.name = none ∧
          ∃ v', copyChunk (depots remote (some copy)) target chunk v = (.ok (), v') ∧
          Alike L v v') := by
  have hmem : chunk.name ∈ plan.chunkNames := by
    rw [← hplan, Session.pending_of_next hnext]
    simp
  have halike := hu.toAlike.trans (.of_reads L (reads_of_next hnext))
  have hplain : ∀ name ∈ d.pending, name.IsPlain := fun name hname =>
    isPlain_of_mem_chunkNames (hplan ▸ List.mem_append_right done hname)
  rw [← hu.handles] at hR
  obtain ⟨hstage, content, stream, -, hstream, hopens⟩ :=
    next_opens (locationOf?_of_open hR) hplain hnext
  rw [← halike.handles] at hL
  refine ⟨hmem, hstage, halike, ?_⟩
  rw [← halike.hindrance? _ (isPlain_of_mem_chunkNames hmem)]
  exact copyChunk_of_open (isPlain_of_mem_chunkNames hmem) hL hstream hopens.isOpen

theorem Underway.keeps {o : Except Fault Unit} (hu : Underway L w done d u)
    (hnext : Delivery.next (depots remote (some copy)) (d, u) = (.ok chunk, d', v))
    (hcopy : copyChunk (depots remote (some copy)) target chunk v = (o, v')) :
    Keeps Workspace.complaints w v' :=
  (hu.complaints.trans _ _ _ ((reads_of_next hnext).keeps isAside_complaints)).trans _ _ _
    ((copyChunk_keeps remote copy target chunk).of_eq hcopy)

end Underway

/-- What a pass over the plan comes to: it stops, or nothing was in its way. -/
structure Passed (L : Location) (w : Workspace) (plan : Plan) (o : Except Fault (List Unit))
    (u : Workspace) : Prop where
  complaints : Keeps Workspace.complaints w u
  stops : ∀ fault, o = .error fault → Stops L w plan fault
  free : ∀ out, o = .ok out → Alike L w u ∧ ∀ name ∈ plan.chunkNames, w.hindrance? L name = none

theorem consumeAll_passed (copy : HandleId) (hs : s.IsFresh)
    (hR : w.handles[remote]? = some { location := R })
    (hL : w.handles[target]? = some { location := L }) :
    ∃ o d u, Session.consumeAll (depots remote (some copy))
        (fun _ chunk => Session.onDepots (copyChunk (depots remote (some copy)) target chunk))
        (s, w) =
          (o, s.passing d, u) ∧ Passed L w s.plan o u := by
  refine Session.consumeAll_rule (fun _ chunk => copyChunk (depots remote (some copy)) target chunk)
    (I := fun d u => ∃ done, done ++ d.pending = s.plan.chunkNames ∧ Underway L w done d u)
    (Q := fun o _ u => Passed L w s.plan o u) hs ?hend ?hfail ?hbody ?hstep ⟨[], rfl, ?hinit⟩
  case hend =>
    rintro d u d' u' out ⟨done, hplan, hu⟩ hnext
    obtain ⟨hpending, rfl, rfl⟩ := next_exhausted hu.notFailed hnext
    rw [hpending, List.append_nil] at hplan
    exact ⟨hu.complaints, nofun, fun _ _ => ⟨hu.toAlike, hplan ▸ hu.free⟩⟩
  case hfail =>
    rintro d u d' u' fault ⟨done, hplan, hu⟩ hnext hne
    refine ⟨hu.complaints.trans _ _ _ ((reads_of_next hnext).keeps isAside_complaints), ?_, nofun⟩
    intro _ hfault
    cases hfault
    rw [← hu.handles] at hR
    rcases next_stops hR hnext hne with ⟨name, hname, cause, hcause, rfl⟩ | hother
    · exact .unopened (hplan ▸ List.mem_append_right done hname) hcause
    · exact .other hother
  case hbody =>
    rintro d u d' v v' k chunk fault ⟨done, hplan, hu⟩ hnext hcopy
    refine ⟨hu.keeps hnext hcopy, ?_, nofun⟩
    intro _ hfault
    cases hfault
    obtain ⟨hmem, -, -, ⟨fault', x, hfailed, hhindrance⟩ | ⟨-, x, hdone, -⟩⟩ :=
      hu.copies hplan hR hL hnext
    · cases hfailed.symm.trans hcopy
      exact .hindered (List.mem_append_left _ hmem) hhindrance
    · cases hdone.symm.trans hcopy
  case hstep =>
    rintro d u d' v v' k chunk a ⟨done, hplan, hu⟩ hnext hcopy
    obtain ⟨-, hstage, halike, ⟨fault', x, hfailed, -⟩ | ⟨hfree, x, hdone, hcopied⟩⟩ :=
      hu.copies hplan hR hL hnext
    · cases hfailed.symm.trans hcopy
    · cases hdone.symm.trans hcopy
      refine ⟨done ++ [chunk.name], ?_, halike.trans hcopied, hu.keeps hnext hcopy, hstage, ?_⟩
      · rw [← hplan, Session.pending_of_next hnext, List.append_assoc, List.singleton_append]
      · intro name hname
        rcases List.mem_append.mp hname with hname | hname
        · exact hu.free name hname
        · rw [List.mem_singleton.mp hname]
          exact hfree
  case hinit =>
    exact ⟨.refl L w, .refl w, Delivery.stage_ofNames_ne_failed _, nofun⟩

/-! ## 4. The end -/

theorem getElem?_closeHandle {h h' : HandleId} (hne : h ≠ h') (w : Workspace) :
    (Workspace.closeHandle h w).2.handles[h']? = w.handles[h']? := by
  simp only [Workspace.closeHandle, Run.change_apply]
  split
  · rfl
  · exact List.getElem?_set_ne hne

/-- **The update is recorded unless something is in the way of the manifest**, or no text can be
made of it. -/
theorem record_of_open {published : Manifest} {comment : Option Text} {o : Except Fault Unit}
    (hopen : w.handles[copy]? = some { location := L })
    (h : Handover.record (depots remote (some copy)) published comment now w = (o, w')) :
    (∀ fault, o = .error fault → w.hindrance? L Manifest.resourceName = some fault ∨
      isReported fault = false) ∧
      (o = .ok () → w.hindrance? L Manifest.resourceName = none) := by
  unfold Handover.record at h
  cases hstored : published.entries.toBytes? comment now with
  | none =>
    rw [hstored] at h
    cases h
    refine ⟨?_, nofun⟩
    rintro _ ⟨⟩
    exact .inr rfl
  | some stored =>
    rw [hstored] at h
    have hdone : Run.Within Reads (Run.done stored : Run Workspace Bytes) := Reads.refl
    rcases Workspace.save_of_open isPlain_resourceName hopen hdone fun _ _ => ⟨stored, rfl⟩ with
      ⟨fault, u, hsave, hhindrance⟩ | ⟨hfree, u, hsave, -⟩
    · cases (Run.bind_of_error hsave).symm.trans h
      refine ⟨?_, nofun⟩
      rintro _ ⟨⟩
      exact .inl hhindrance
    · cases (Run.bind_of_ok hsave).symm.trans h
      exact ⟨nofun, fun _ => hfree⟩

/-- The end of a session fails of recording alone. -/
theorem finish_of_open {d : Delivery} {o : Except Fault Unit} (hs : s.IsFresh)
    (hcopy : s.hasCopy = true) (hne : remote ≠ copy)
    (hopen : w.handles[copy]? = some { location := L })
    (h : Session.finish (depots remote (some copy)) now (s.passing d, w) = (o, t, w')) :
    (∀ fault, o = .error fault → w.hindrance? L Manifest.resourceName = some fault ∨
      isReported fault = false) ∧
      (o = .ok () → w.hindrance? L Manifest.resourceName = none) := by
  have hrecord := Session.recordPass_of_finish_passing hs h
  have hshut := @shutCurrent_ok remote (some copy) d w
  have hreads := Delivery.shutCurrent_within (Workspace.stayWithin_reads remote (some copy)) d w
  unfold Session.recordPass at hrecord
  rcases hu : d.shutCurrent (depots remote (some copy)) w with ⟨o', u⟩
  rw [hu] at hshut hreads hrecord
  cases hshut
  simp only [Handover.finalize, hcopy, if_pos] at hrecord
  rw [Run.ensure_of_ok (release_ok remote (some copy) .copy)] at hrecord
  -- the handle on the copy is still open when the other one is closed
  have hreleased : (depots remote (some copy)).release .remote u =
      (.ok (), (Workspace.closeHandle remote u).2) := rfl
  have huntouched := Workspace.closeHandle_untouched remote u
  have hopen' : (Workspace.closeHandle remote u).2.handles[copy]? = some { location := L } := by
    rw [getElem?_closeHandle hne, hreads.handles]
    exact hopen
  rw [Run.bind_of_ok hreleased] at hrecord
  obtain ⟨herror, hok⟩ := record_of_open hopen' (Prod.eta _).symm
  have hdisk := huntouched.disk.trans hreads.disk
  have hmemory := huntouched.memory.trans hreads.memory
  rw [Workspace.hindrance?_of_same hdisk hmemory, (Prod.mk.inj hrecord).1] at herror hok
  exact ⟨herror, hok⟩

/-- **Copying stops for one of these reasons, and succeeds only if nothing is in the way**; nothing
is said about it. -/
theorem copyAll_stops {o : Except Fault Unit} (hs : s.IsFresh) (hcopy : s.hasCopy = true)
    (hne : remote ≠ copy) (hR : w.handles[remote]? = some { location := R })
    (hL : w.handles[copy]? = some { location := L })
    (hL' : w.handles[target]? = some { location := L })
    (h : copyAll (depots remote (some copy)) target now (s, w) = (o, t, w')) :
    Keeps Workspace.complaints w w' ∧ (∀ fault, o = .error fault → Stops L w s.plan fault) ∧
      (o = .ok () → ∀ name ∈ s.plan.chunkNames ++ [Manifest.resourceName], w.hindrance? L name =
        none) := by
  obtain ⟨o', d, u, hconsume, hpassed⟩ := consumeAll_passed copy hs hR hL'
  rcases o' with fault | out
  · -- the session is closed, which goes well
    have hclosed := close_ok remote (some copy) (s.passing d) u
    have hkept := close_within (Workspace.looksWithin_keeps isAside_complaints) remote (some copy)
        (s.passing d) u
    rcases hclose : Session.close (depots remote (some copy)) (s.passing d, u) with ⟨o'', t', v⟩
    rw [hclose] at hclosed hkept
    cases hclosed
    cases (Session.during_of_error (Run.bind_of_error hconsume) hclose).symm.trans h
    refine ⟨hpassed.complaints.trans _ _ _ hkept, ?_, nofun⟩
    rintro _ ⟨⟩
    exact hpassed.stops fault rfl
  · obtain ⟨halike, hfree⟩ := hpassed.free out rfl
    rw [← halike.handles] at hL
    rcases hfinish : Session.finish (depots remote (some copy)) now (s.passing d, u)
      with ⟨o'', t', v⟩
    have hkept := finish_keeps isAside_complaints hs hfinish
    obtain ⟨herror, hok⟩ := finish_of_open hs hcopy hne hL hfinish
    rw [halike.hindrance? _ isPlain_resourceName] at herror hok
    have hbody := Run.bind_of_ok (f := fun _ => (pure () : Run (Session × Workspace) Unit)) hconsume
    have hall := (Session.during_of_ok (a := ()) hbody hfinish).symm.trans h
    obtain ⟨rfl, rfl⟩ : o = o'' ∧ w' = v := by
      rcases o'' with fault | ⟨⟩ <;> cases hall <;> exact ⟨rfl, rfl⟩
    refine ⟨hpassed.complaints.trans _ _ _ hkept, fun fault hfault => ?_,
      fun hdone name hname => ?_⟩
    · rcases herror fault hfault with hhindrance | hother
      · exact .hindered (List.mem_append_right _ (List.mem_singleton_self _)) hhindrance
      · exact .other hother
    · rcases List.mem_append.mp hname with hname | hname
      · exact hfree name hname
      · rw [List.mem_singleton.mp hname]
        exact hok hdone

end Command

end IndexChain
