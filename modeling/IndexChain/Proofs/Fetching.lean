import IndexChain.Command.Run
import IndexChain.Proofs.Growth
import IndexChain.Proofs.Plan
import IndexChain.Proofs.Session

/-!
# Fetching — what a pass over the planned chunks leaves, however it ends

A chunk is copied whole or not at all: a stream that was just opened can be read, so a failure to
copy a chunk comes before its file is emptied (`copyChunk_eq_error`). The loop's invariant is
`Fetching`: the chunks that were handed out are in the copy, they were stored in their order and
told of in their order, and no other file has changed.

So **what is in the copy after a pass is a prefix of the plan** (`consumeAll_fetches`): all of it if
the pass succeeded, and else what comes before the chunk at which it failed. Nothing is assumed of
the two locations; where they denote one folder, what arrives of a chunk is what is left of it
(`arriving`).
-/

namespace IndexChain

open Workspace (Writes Stores Opens Quiet Still Prepares depots stayWithin)

theorem Plan.nodup_chunkNames (plan : Plan) : plan.chunkNames.Nodup := by
  cases plan with
  | full reason => exact List.nodup_singleton _
  | incremental first last => exact (nodup_names first last).of_cons.of_cons

namespace Command

/-! ## 1. One chunk -/

/-- What arrives of a file's content. A file that is stored in place of the one it is read from is
    emptied before it is read. -/
def arriving (source target : Spot) (content : Bytes) : Bytes :=
  if source = target then Workspace.yields content [] source else content

/-- The line about a chunk that was copied. -/
def fetchedLine (name : Text) : Text := ("Fetched " ++ name).withoutControl

/-- **A chunk is copied**, and nothing else is stored. -/
theorem copyChunk_eq_ok {remote target : HandleId} {copy : Option HandleId} {chunk : Chunk}
    {w w' : Workspace} {L : Location} {s : Workspace.Stream} {spot : Spot} {content : Bytes}
    (hname : chunk.name.IsPlain) (hL : w.locationOf? target = some L)
    (hs : w.streams[chunk.stream]? = some s) (hopens : Opens spot content s)
    (hcontent : w.file? spot = some content)
    (h : copyChunk (depots remote copy) target chunk w = (.ok (), w')) :
    Stores L [chunk.name] w w' ∧
      w'.file? (w.spotIn L chunk.name) = some (arriving spot (w.spotIn L chunk.name) content) ∧
      w'.printed = w.printed ++ [fetchedLine chunk.name] := by
  obtain ⟨_, w₁, hsave, hprint⟩ := Run.bind_eq_ok_iff.mp h
  have hquiet : Quiet w w₁ :=
    (Workspace.save_quiet target chunk.name (Workspace.read_quiet chunk.stream none)).of_eq hsave
  obtain ⟨u, v, bytes, hbegun, hempty, hstreams, hread, rfl⟩ := Workspace.save_eq_ok hname hL hsave
  have hbytes : bytes = arriving spot (w.spotIn L chunk.name) content := by
    unfold arriving
    split
    next heq => exact Workspace.read_eq_ok (hstreams ▸ hs) hopens (heq ▸ hempty) hread
    next hne =>
      -- the file that is read is not the one that was emptied
      have hyields := Workspace.read_eq_ok (hstreams ▸ hs) hopens
        ((hbegun.file? spot hne).trans hcontent) hread
      rwa [Workspace.yields_self] at hyields
  have hroot := Workspace.spotIn_ne_root w L chunk.name
  have hreadWrites : Writes (· = w.spotIn L chunk.name) [] u v :=
    (Workspace.read_within _ chunk.stream none).of_eq hread
  have hprinted : Writes (fun _ => False) [] (v.put (w.spotIn L chunk.name) bytes) w' :=
    (Workspace.print_within _ ("Fetched " ++ chunk.name)).of_eq hprint
  have hput := Workspace.put_writes hroot bytes (w := v)
  refine ⟨.of_eq_spot ?_, ?_, ?_⟩
  · have hall :=
      ((hbegun.append hreadWrites).append hput).append (hprinted.mono fun _ => False.elim)
    simpa only [List.append_nil] using hall
  · rw [hprinted.file? _ id, Workspace.file?_put_self hroot, hbytes]
  · cases hprint
    exact congrArg (· ++ [fetchedLine chunk.name]) hquiet

/-- **A chunk that is not copied leaves no trace in the files.** -/
theorem copyChunk_eq_error {remote target : HandleId} {copy : Option HandleId} {chunk : Chunk}
    {w w' : Workspace} {L : Location} {s : Workspace.Stream} {fault : Fault}
    (hname : chunk.name.IsPlain) (hL : w.locationOf? target = some L)
    (hs : w.streams[chunk.stream]? = some s) (hopen : s.closed = false)
    (h : copyChunk (depots remote copy) target chunk w = (.error fault, w')) :
    Quiet w w' ∧ ∃ tried, tried <+: [chunk.name] ∧ Prepares L tried w w' := by
  have hsave : Workspace.save target chunk.name (chunk.read (depots remote copy) none) w =
      (.error fault, w') := by
    rcases hsave : Workspace.save target chunk.name (chunk.read (depots remote copy) none) w with
      ⟨fault' | ⟨⟩, u⟩
    · cases (Run.bind_of_error hsave).symm.trans h
      rfl
    · -- a line can always be printed
      cases (Run.bind_of_ok hsave).symm.trans h
  refine
    ⟨(Workspace.save_quiet target chunk.name (Workspace.read_quiet chunk.stream none)).of_eq hsave,
      ?_⟩
  rcases Workspace.save_eq_error hname hL hsave with hprepares | ⟨u, hstreams, hread⟩
  · exact hprepares
  · obtain ⟨bytes, hbytes⟩ := Workspace.read_of_open (hstreams ▸ hs) hopen
    have hfailed := congrArg Prod.fst hread
    rw [show chunk.read (depots remote copy) none u = Workspace.read chunk.stream none u from rfl,
      hbytes] at hfailed
    cases hfailed

/-! ## 2. All chunks -/

section Fetching

variable {remote target : HandleId} {copy : Option HandleId} {w₀ w w' w'' : Workspace}
    {R L : Location}
  {done tried tried' names : List Text} {d d' : Delivery} {chunk : Chunk} {fault : Fault}

/-- A file that is stored is not the one of another name. -/
theorem file?_of_stores {name : Text} (h : Stores L names w w') (hname : name ∉ names) :
    w'.file? (w.spotIn L name) = w.file? (w.spotIn L name) := by
  apply h.file?
  rintro ⟨other, hother, heq⟩
  exact hname (Folder.spot_inj heq ▸ hother)

/-- What fetching has come to: the files `done` have arrived from one folder in another one, the
    files `tried` were said to be stored, in this order, and no other file has changed. -/
structure Fetched (R L : Location) (done tried : List Text) (before after : Workspace) : Prop where
  arrived : ∀ name ∈ done, ∃ content, before.file? (before.spotIn R name) = some content ∧
    after.file? (before.spotIn L name) =
      some (arriving (before.spotIn R name) (before.spotIn L name) content)
  writes : Writes (fun spot => ∃ name ∈ done, spot = before.spotIn L name)
    (L.pathsBelow tried) before after
  /-- It was told of each file that has arrived, in their order. -/
  printed : after.printed = before.printed ++ done.map fetchedLine

namespace Fetched

/-- Nothing is fetched yet. -/
theorem start (R L : Location) (w : Workspace) : Fetched R L [] [] w w :=
  ⟨nofun, .refl _ w, (List.append_nil _).symm⟩

/-- What changes no file afterwards leaves what has arrived. -/
theorem append (h : Fetched R L done tried w w')
    (hstay : Writes (fun _ => False) (L.pathsBelow tried') w' w'') (hquiet : Quiet w' w'') :
    Fetched R L done (tried ++ tried') w w'' where
  arrived name hname := by
    obtain ⟨content, hremote, hlocal⟩ := h.arrived name hname
    exact ⟨content, hremote, (hstay.file? _ id).trans hlocal⟩
  writes := by
    rw [Location.pathsBelow_append]
    exact h.writes.append (hstay.mono fun _ => False.elim)
  printed := Eq.trans hquiet h.printed

theorem still (h : Fetched R L done tried w w') (hstill : Still w' w'') :
    Fetched R L done tried w w'' := by
  have hnothing : Writes (fun _ => False) (L.pathsBelow []) w' w'' := hstill.writes _
  simpa using h.append hnothing hstill.quiet

/-- What neither stores nor prints before it is no part of it. -/
theorem of_still (hstill : Still w₀ w) (h : Fetched R L done tried w w') :
    Fetched R L done tried w₀ w' where
  arrived name hname := by
    have hstay := hstill.writes fun _ => False
    have harrived := h.arrived name hname
    rwa [hstay.spotIn, hstay.spotIn, hstay.file? _ id] at harrived
  writes := by
    have hwrites := h.writes
    simp only [(hstill.writes fun _ => False).spotIn] at hwrites
    exact (hstill.writes _).append hwrites
  printed := by rw [h.printed, show w.printed = w₀.printed from hstill.quiet]

/-- **A file that is still to come is as it was**, even in the folder where the others arrive. -/
theorem file?_remote (h : Fetched R L done tried w w')
    (hplain : ∀ name ∈ done, name.IsPlain) {name : Text} (hname : name.IsPlain)
    (hnot : name ∉ done) :
    w'.file? (w.spotIn R name) = w.file? (w.spotIn R name) := by
  apply h.writes.file?
  rintro ⟨other, hother, heq⟩
  by_cases hfolder : R.folder w.disk.workplace = L.folder w.disk.workplace
  · rw [Workspace.spotIn, hfolder] at heq
    exact hnot (Folder.spot_inj heq ▸ hother)
  · exact Folder.spot_ne hfolder hname.noSlash (hplain other hother).noSlash heq

end Fetched

/-- Before a chunk is asked for: those that were handed out have arrived. -/
structure Fetching (w₀ : Workspace) (R L : Location) (done : List Text) (d : Delivery)
    (w : Workspace) : Prop extends Fetched R L done done w₀ w where
  notFailed : d.stage ≠ .failed
  isPlain : ∀ name ∈ done ++ d.pending, name.IsPlain
  nodup : (done ++ d.pending).Nodup

/-- Asking for a chunk opens its file, which is as it was. -/
theorem next_opens (hR : w.locationOf? remote = some R) (hplain : ∀ name ∈ d.pending, name.IsPlain)
    (h : Delivery.next (depots remote copy) (d, w) = (.ok chunk, d', w')) :
    d'.stage ≠ .failed ∧ ∃ content s, w.file? (w.spotIn R chunk.name) = some content ∧
      w'.streams[chunk.stream]? = some s ∧ Opens (w.spotIn R chunk.name) content s := by
  have hnext := Delivery.next_next (depots remote copy) d w
  rw [h] at hnext
  cases hnext with
  | @handed name rest stream w₁ w₂ _ hpending hshut hfetch =>
    have hfalse := stayWithin (fun _ => False) remote copy
    have hshutWrites := (Delivery.shutCurrent_within hfalse d).of_eq hshut
    obtain ⟨content, s, hcontent, hs, hopens⟩ := Workspace.fetch_eq_ok
      (hplain name (hpending ▸ List.mem_cons_self)) (hshutWrites.locationOf? _ _ hR) hfetch
    rw [hshutWrites.spotIn] at hcontent hopens
    rw [hshutWrites.file? _ id] at hcontent
    refine ⟨?_, content, s, hcontent, hs, hopens⟩
    simp only
    split <;> simp

theorem shutCurrent_ok (d : Delivery) (w : Workspace) :
    (Delivery.shutCurrent (depots remote copy) d w).1 = .ok () := by
  unfold Delivery.shutCurrent
  cases d.current <;> rfl

/-- There is no other end of the chunks than that there are no more. -/
theorem next_exhausted (hfailed : d.stage ≠ .failed)
    (h : Delivery.next (depots remote copy) (d, w) = (.error .exhausted, d', w')) :
    d.pending = [] ∧ d' = d ∧ w' = w := by
  have hnext := Delivery.next_next (depots remote copy) d w
  rw [h] at hnext
  generalize hfault : (Except.error Fault.exhausted : Except Fault Chunk) = o at hnext
  cases hnext with
  | drained hdrained => exact ⟨hdrained.resolve_left hfailed, rfl, rfl⟩
  | unshut _ _ hshut =>
    have hok := @shutCurrent_ok remote copy d w
    rw [hshut] at hok
    cases hok
  | @unfetched name _ _ w₁ _ _ _ _ hfetch =>
    obtain rfl := Delivery.eq_exhausted_of_switchFault (Except.error.inj hfault).symm
    have hne := Workspace.fetch_ne_exhausted remote name w₁
    have hfetch' : Workspace.fetch remote name w₁ = (.error .exhausted, _) := hfetch
    rw [hfetch'] at hne
    exact absurd rfl hne
  | handed => cases hfault

namespace Fetching

theorem start (plan : Plan) (w : Workspace) : Fetching w R L [] (.ofNames plan.chunkNames) w where
  toFetched := .start R L w
  notFailed := Delivery.stage_ofNames_ne_failed plan.chunkNames
  isPlain _ := isPlain_of_mem_chunkNames
  nodup := plan.nodup_chunkNames

/-- Asking for a chunk changes no file, whether it can be opened or not. -/
theorem of_next (hF : Fetching w₀ R L done d w) {o : Except Fault Chunk}
    (hnext : Delivery.next (depots remote copy) (d, w) = (o, d', w')) :
    Fetched R L done done w₀ w' :=
  hF.toFetched.still ((Delivery.next_within (Workspace.stayWithin_still remote copy)).of_eq hnext)

/-- **A chunk that was handed out and cannot be copied** leaves what has arrived. -/
theorem of_body_error (hF : Fetching w₀ R L done d w) (hR : w₀.locationOf? remote = some R)
    (hL : w₀.locationOf? target = some L)
    (hnext : Delivery.next (depots remote copy) (d, w) = (.ok chunk, d', w'))
    (hbody : copyChunk (depots remote copy) target chunk w' = (.error fault, w'')) :
    ∃ tried, tried <+: [chunk.name] ∧ Fetched R L done (done ++ tried) w₀ w'' := by
  have hpending := Session.pending_of_next hnext
  obtain ⟨-, content, s, -, hs, hopens⟩ := next_opens (hF.writes.locationOf? _ _ hR)
    (fun name hname => hF.isPlain name (List.mem_append_right done hname)) hnext
  have hasked := hF.of_next hnext
  obtain ⟨hquiet, tried, htried, hprepares⟩ :=
    copyChunk_eq_error (hF.isPlain chunk.name (by simp [hpending]))
    (hasked.writes.locationOf? _ _ hL) hs hopens.isOpen hbody
  exact ⟨tried, htried, hasked.append hprepares.writes hquiet⟩

/-- **One more chunk is handed out and copied.** -/
theorem step (hF : Fetching w₀ R L done d w) (hR : w₀.locationOf? remote = some R)
    (hL : w₀.locationOf? target = some L)
    (hnext : Delivery.next (depots remote copy) (d, w) = (.ok chunk, d', w'))
    (hbody : copyChunk (depots remote copy) target chunk w' = (.ok (), w'')) :
    Fetching w₀ R L (done ++ [chunk.name]) d' w'' := by
  have hpending := Session.pending_of_next hnext
  have hall : done ++ [chunk.name] ++ d'.pending = done ++ d.pending := by simp [hpending]
  obtain ⟨hfailed, content, s, hcontent, hs, hopens⟩ := next_opens (hF.writes.locationOf? _ _ hR)
    (fun name hname => hF.isPlain name (List.mem_append_right done hname)) hnext
  have hname : chunk.name.IsPlain := hF.isPlain chunk.name (by simp [hpending])
  have hnot : chunk.name ∉ done := fun hmem =>
    (List.nodup_append.mp hF.nodup).2.2 _ hmem _ (by simp [hpending]) rfl
  have hasked := hF.of_next hnext
  -- the file is the one that was there before the first chunk
  rw [hF.writes.spotIn] at hcontent hopens
  have hnow :=
    (((Delivery.next_within (stayWithin (fun _ => False) remote copy)).of_eq hnext).file? _
    id).trans hcontent
  rw [hF.file?_remote (fun name h => hF.isPlain name (List.mem_append_left _ h)) hname hnot]
    at hcontent
  obtain ⟨hstores, hwritten, hprinted⟩ :=
    copyChunk_eq_ok hname (hasked.writes.locationOf? _ _ hL) hs hopens hnow hbody
  rw [hasked.writes.spotIn] at hwritten
  refine ⟨⟨fun name hmem => ?_, Stores.append hasked.writes hstores, ?_⟩, hfailed,
    hall ▸ hF.isPlain, hall ▸ hF.nodup⟩
  · by_cases heq : name = chunk.name
    · subst heq
      exact ⟨content, hcontent, hwritten⟩
    · -- a chunk that was copied before has a file of its own
      have hbefore : name ∈ done := (List.mem_append.mp hmem).resolve_right
        fun h => heq (List.mem_singleton.mp h)
      obtain ⟨content', hremote, hlocal⟩ := hasked.arrived name hbefore
      have hnew : name ∉ [chunk.name] := by simpa using heq
      have hkept := file?_of_stores hstores hnew
      rw [hasked.writes.spotIn] at hkept
      exact ⟨content', hremote, hkept.trans hlocal⟩
  · rw [hprinted, hasked.printed, List.map_append, List.append_assoc]
    rfl

end Fetching

/-- **What a pass over the plan has fetched when it ends**, by a failure or not: the chunks that
    have arrived are the first ones of the plan, and after a pass that succeeds they are all of it.
    Of those that were said to be stored the last one may be missing. -/
theorem consumeAll_fetches {s t : Session} {o : Except Fault (List Unit)} (hs : s.IsFresh)
    (hR : w.locationOf? remote = some R) (hL : w.locationOf? target = some L)
    (h : Session.consumeAll (depots remote copy)
      (fun _ chunk => Session.onDepots (copyChunk (depots remote copy) target chunk))
      (s, w) = (o, t, w')) :
    ∃ d done tried, t = s.passing d ∧ done <+: tried ∧ tried <+: s.plan.chunkNames ∧
      Fetched R L done tried w w' ∧ ∀ out, o = .ok out → done = s.plan.chunkNames := by
  have hrule := Session.consumeAll_rule (D := depots remote copy) (w := w)
    (fun _ chunk => copyChunk (depots remote copy) target chunk)
    (I := fun d u => ∃ done, done ++ d.pending = s.plan.chunkNames ∧ Fetching w R L done d u)
    (Q := fun o _ u => ∃ done tried, done <+: tried ∧ tried <+: s.plan.chunkNames ∧
      Fetched R L done tried w u ∧ ∀ out, o = .ok out → done = s.plan.chunkNames)
    hs ?hend ?hfail ?hbody ?hstep ⟨[], rfl, .start s.plan w⟩
  case hend =>
    rintro d u d' u' out ⟨done, hdone, hF⟩ hnext
    obtain ⟨hpending, rfl, rfl⟩ := next_exhausted hF.notFailed hnext
    rw [hpending, List.append_nil] at hdone
    subst hdone
    exact ⟨_, _, List.prefix_rfl, List.prefix_rfl, hF.toFetched, fun _ _ => rfl⟩
  case hfail =>
    rintro d u d' u' fault ⟨done, hdone, hF⟩ hnext -
    exact ⟨done, done, List.prefix_rfl, ⟨_, hdone⟩, hF.of_next hnext, nofun⟩
  case hbody =>
    rintro d u d' u' u'' k chunk fault ⟨done, hdone, hF⟩ hnext hbody
    obtain ⟨tried, htried, hfetched⟩ := hF.of_body_error hR hL hnext hbody
    refine ⟨done, done ++ tried, List.prefix_append _ _, ?_, hfetched, nofun⟩
    -- the chunk that failed is the next one of the plan
    rw [← hdone, Session.pending_of_next hnext]
    exact (List.prefix_append_right_inj done).mpr (htried.trans ⟨d'.pending, rfl⟩)
  case hstep =>
    rintro d u d' u' u'' k chunk a ⟨done, hdone, hF⟩ hnext hbody
    refine ⟨done ++ [chunk.name], ?_, hF.step hR hL hnext hbody⟩
    rw [← hdone, Session.pending_of_next hnext, List.append_assoc, List.singleton_append]
  obtain ⟨o', d, u, hrun, done, tried, hend⟩ := hrule
  rw [h] at hrun
  cases hrun
  exact ⟨d, done, tried, rfl, hend⟩

/-- **A pass that succeeds has fetched every chunk of the plan.** -/
theorem consumeAll_fetches_all {s t : Session} {out : List Unit} (hs : s.IsFresh)
    (hR : w.locationOf? remote = some R) (hL : w.locationOf? target = some L)
    (h : Session.consumeAll (depots remote copy)
      (fun _ chunk => Session.onDepots (copyChunk (depots remote copy) target chunk)) (s, w) =
        (.ok out, t, w')) :
    ∃ d, t = s.passing d ∧ Fetched R L s.plan.chunkNames s.plan.chunkNames w w' := by
  obtain ⟨d, done, tried, ht, hdone, htried, hfetched, hall⟩ := consumeAll_fetches hs hR hL h
  obtain rfl := hall out rfl
  obtain rfl := htried.eq_of_length (Nat.le_antisymm htried.length_le hdone.length_le)
  exact ⟨d, ht, hfetched⟩

end Fetching

end Command

end IndexChain
