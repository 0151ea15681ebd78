import IndexChain.Proofs.Failure
import IndexChain.Proofs.Overwriting

/-!
# Foresight — what a plan tells of the synchronisation

Showing a plan changes no file, and **a synchronisation with the same settings fetches the chunks
that the plan lists, in the order of the list** (`plan_foretells_sync`): all of them if it succeeds,
and if it fails the first ones.

Two facts carry this. A plan depends on what can be read of two manifests (`Settings.planIn_eq`), so
the session of the synchronisation has the plan that was shown, though it is opened by other
handles. And what a pass over the planned chunks leaves is known however it ends
(`consumeAll_fetches`); whatever follows a failure changes no file any more.
-/

namespace IndexChain

open Workspace (Stores Quiet depots looksWithin_quiet looksWithin_still)

/-- The same files lead to the same plan. -/
theorem Settings.planIn_of_same {homes : DiskPath.Homes} {s : Settings} {R L : Location}
    {w w' : Workspace} (hR : s.remoteLocation = .ok R) (hL : s.copyLocation homes = .ok (some L))
    (hdisk : w'.disk = w.disk)
    (hmemory : w'.memory = w.memory) : s.planIn homes w' = s.planIn homes w := by
  rw [planIn_eq hR hL, planIn_eq hR hL]
  simp only [Workspace.contentIn_of_same hdisk hmemory]

namespace Command

/-! ## 1. What a plan shows -/

section Plan

variable {homes : DiskPath.Homes} {settings : Settings} {request : Request} {format : Text}
  {w w' : Workspace}

/-- The plan of a session was shown: one report was printed, which lists the names of its chunks. -/
structure Shown (homes : DiskPath.Homes) (settings : Settings) (format : Text)
    (w : Workspace) (s : Session) (w' : Workspace) : Prop where
  opened : ∃ opened u, settings.openSession homes w = (.ok opened, u) ∧ opened.session = s
  printed : ∃ f, Report.Format.ofName? format = some f ∧
    w'.printed = w.printed ++ [((planReport s).shownAs f).withoutControl]

/-- Closing a session changes nothing about its plan. -/
theorem planReport_close (places : Depots Workspace) (s : Session) (w : Workspace) :
    planReport (Session.close places (s, w)).2.1 = planReport s := by
  have hlive (s : Session) : planReport (Session.closeLive places (s, w)).2.1 = planReport s := by
    unfold Session.closeLive
    cases hi : s.live with
    | none => simp only [hi]
    | some i =>
      simp only [hi, Session.onPass]
      rcases Delivery.close places (s.passes[i]?.getD (.ofNames []), w) with ⟨fault | ⟨⟩, d, u⟩ <;>
        rfl
  cases hs : s.closed with
  | true => simp only [Session.close, hs, if_true]
  | false =>
    rw [Session.close_eq hs]
    exact hlive s.ended

/-- What was shown is the plan of a session between the places that the settings name. -/
theorem shown_of_done (h : runPlan homes request format w = (.done, w')) :
    ∃ settings s, request.settings w.disk = .ok settings ∧ Shown homes settings format w s w' := by
  unfold runPlan at h
  cases hsettings : request.settings w.disk with
  | error refusal =>
    rw [hsettings] at h
    cases h
  | ok settings =>
    rw [hsettings] at h
    simp only at h
    have hopenedQuiet := openSession_within looksWithin_quiet homes settings w
    rcases hsession : settings.openSession homes w with ⟨fault | opened, u⟩
    · rw [hsession] at h
      exact absurd (congrArg Prod.fst h) (failed_ne_done fault u)
    · rw [hsession] at h hopenedQuiet
      simp only at h
      have hclosedQuiet := close_within looksWithin_quiet opened.remote opened.copy opened.session u
      have hreport := planReport_close (depots opened.remote opened.copy) opened.session u
      rcases hclose : Session.close (depots opened.remote opened.copy) (opened.session, u) with
        ⟨fault | ⟨⟩, s, v⟩
      · rw [hclose] at h
        cases h
      · rw [hclose] at h hclosedQuiet hreport
        simp only [showPlan, hreport] at h
        cases hformat : Report.Format.ofName? format with
        | none =>
          rw [hformat] at h
          cases h
        | some f =>
          rw [hformat] at h
          cases h
          have hquiet : v.printed = w.printed := hopenedQuiet.trans _ _ _ hclosedQuiet
          exact ⟨settings, opened.session, rfl, ⟨opened, u, hsession, rfl⟩, f, hformat,
            congrArg (· ++ _) hquiet⟩

end Plan

/-! ## 2. What a synchronisation does with a plan -/

section Ready

variable {settings : Settings} {R L : Location} {opened : Opened} {copy target remote : HandleId}
  {w u v w' : Workspace} {s t : Session} {now : Moment} {fault : Fault}

/-- The end of a session leaves alone what is aside. -/
theorem finish_keeps {β : Type} {part : Workspace → β} (hpart : Workspace.IsAside part)
    {d : Delivery} {o : Except Fault Unit} (hs : s.IsFresh)
    (h : Session.finish (depots remote (some copy)) now (s.passing d, w) = (o, t, w')) :
    Workspace.Keeps part w w' := by
  have hshut :=
    Delivery.shutCurrent_within (Workspace.stayWithin_keeps hpart remote (some copy)) d w
  have hrecord :=
    Session.recordPass_within (Workspace.endsWithin_keeps hpart remote (some copy)) now s d w
  rw [Session.recordPass_of_finish_passing hs h] at hrecord
  exact hshut.trans _ _ _ hrecord

theorem finish_quiet {d : Delivery} {o : Except Fault Unit} (hs : s.IsFresh)
    (h : Session.finish (depots remote (some copy)) now (s.passing d, w) = (o, t, w')) :
    Quiet w w' :=
  finish_keeps Workspace.isAside_printed hs h

/-- **Copying that succeeds fetches the whole plan** and records the update. -/
theorem Ready.copyAll_eq_ok (h : Ready settings R L opened copy target w u v)
    (hall : copyAll (depots opened.remote (some copy)) target now (opened.session, v) =
      (.ok (), t, w')) :
    ∃ copied, Fetched R L opened.session.plan.chunkNames opened.session.plan.chunkNames w copied ∧
      Stores L [Manifest.resourceName] copied w' ∧ Quiet copied w' := by
  have hfresh := h.established.isFresh
  obtain ⟨⟨_, copied⟩, hbody, hfinish⟩ := Session.during_eq_ok_iff.mp hall
  obtain ⟨out, _, hconsume, hbody⟩ := Run.bind_eq_ok_iff.mp hbody
  cases hbody
  obtain ⟨d, rfl, hfetched, hrecording⟩ := h.fetches_all hconsume
  obtain ⟨_, -, hstores, -⟩ := finish_eq_ok hfresh h.established.hasCopy_eq hrecording hfinish
  exact ⟨copied, hfetched, hstores, finish_quiet hfresh hfinish⟩

/-- **Copying that fails has fetched the first chunks of the plan**, if not all of them, and
    recorded nothing. -/
theorem Ready.copyAll_eq_error (h : Ready settings R L opened copy target w u v)
    (hall : copyAll (depots opened.remote (some copy)) target now (opened.session, v) =
      (.error fault, t, w')) :
    ∃ done tried, done <+: opened.session.plan.chunkNames ∧ done <+: tried ∧
      tried <+: opened.session.plan.chunkNames ++ [Manifest.resourceName] ∧
      Fetched R L done tried w w' := by
  have hfresh := h.established.isFresh
  rcases Command.copyAll_eq_error hall with
    ⟨fault', t', x, hconsume, hstill⟩ | ⟨out, t', x, hconsume, hfinish⟩
  · obtain ⟨d, done, tried, -, hdone, htried, hfetched, -⟩ := consumeAll_fetches hfresh
      (h.reading.locationOf? _ _ h.remote) (h.reading.locationOf? _ _ h.storing) hconsume
    exact ⟨done, tried, hdone.trans htried, hdone, htried.trans (List.prefix_append _ _),
      (hfetched.of_still (h.before.trans _ _ _ h.reading)).still hstill⟩
  · obtain ⟨d, rfl, hfetched, hrecording⟩ := h.fetches_all hconsume
    obtain ⟨tried, htried, hprepares⟩ :=
      finish_prepares_of_error hfresh h.established.hasCopy_eq hrecording hfinish
    exact ⟨_, _, List.prefix_rfl, List.prefix_append _ _,
      (List.prefix_append_right_inj _).mpr htried, hfetched.append hprepares.writes
      (finish_quiet hfresh hfinish)⟩

end Ready

section Sync

variable {homes : DiskPath.Homes} {settings : Settings} {request : Request} {now : Moment}
  {R L : Location} {w w' : Workspace} {plan : Plan} {outcome : Outcome}

/-- How a synchronisation between the places that settings name may end, by what it has fetched of
    the chunks that were planned. -/
inductive Foretold (homes : DiskPath.Homes) (settings : Settings) (names : List Text)
    (w : Workspace) :
    Outcome → Workspace → Prop
  /-- Without a place for a copy nothing is fetched. -/
  | uncopied (hcopy : settings.copyLocation homes = .ok none) :
      Foretold homes settings names w (.refused (.misuse .missingCopy)) w
  /-- All chunks have arrived in their order, and the update was recorded after them. -/
  | done {R L : Location} {s : Session} {copied w' : Workspace}
      (hR : settings.remoteLocation = .ok R) (hL : settings.copyLocation homes = .ok (some L))
      (hfetched : Fetched R L names names w copied)
      (hrecorded : Stores L [Manifest.resourceName] copied w')
      (hprinted : w'.printed = copied.printed ++ [(summary s).withoutControl]) :
      Foretold homes settings names w .done w'
  /-- Something failed, and the chunks that have arrived by then are the first ones. -/
  | failed {R L : Location} {done tried : List Text} {outcome : Outcome} {w' : Workspace}
      (hR : settings.remoteLocation = .ok R) (hL : settings.copyLocation homes = .ok (some L))
      (hfailed : outcome ≠ .done) (hdone : done <+: names) (htried : done <+: tried)
      (hall : tried <+: names ++ [Manifest.resourceName]) (hfetched : Fetched R L done tried w w') :
      Foretold homes settings names w outcome w'

/-- **The session of a synchronisation has the plan that was made before.** -/
theorem exists_opened_of_planIn (hR : settings.remoteLocation = .ok R)
    (hL : settings.copyLocation homes = .ok (some L)) (hdisk : w'.disk = w.disk)
    (hmemory : w'.memory = w.memory) (hplan : settings.planIn homes w = .ok plan) :
    ∃ opened u, settings.openSession homes w' = (.ok opened, u) ∧ opened.session.plan = plan := by
  rw [← Settings.planIn_of_same hR hL hdisk hmemory] at hplan
  unfold Settings.planIn at hplan
  rcases hsession : settings.openSession homes w' with ⟨fault | opened, u⟩
  · rw [hsession] at hplan
    cases hplan
  · rw [hsession] at hplan
    exact ⟨opened, u, rfl, Except.ok.inj hplan⟩

/-- **A synchronisation ends as its plan foretells.** -/
theorem runSync_foretold (hsettings : request.settings w.disk = .ok settings)
    (hR : settings.remoteLocation = .ok R) (hL : settings.copyLocation homes = .ok (some L))
    (hplan : settings.planIn homes w = .ok plan) (h : runSync homes request now w = (outcome, w')) :
    Foretold homes settings plan.chunkNames w outcome w' := by
  obtain ⟨target, w₁, hcopy⟩ : ∃ target w₁, settings.openCopy homes w =
      (.ok (some target), w₁) := by
    unfold Settings.openCopy
    rw [hL]
    exact ⟨_, _, rfl⟩
  have hopening := (openCopy_within looksWithin_still homes settings).of_eq hcopy
  obtain ⟨opened, w₂, hsession, rfl⟩ :=
    exists_opened_of_planIn hR hL hopening.disk hopening.memory hplan
  obtain ⟨copy, u, hready⟩ := exists_ready hR hL hcopy hsession
  have hend := syncEnd homes request now w
  rw [h] at hend
  -- both places are there and the session is opened, so copying succeeds or fails
  cases hend with
  | unset hsettings' => cases hsettings.symm.trans hsettings'
  | misplaced hsettings' hcopy' | uncopied hsettings' hcopy' =>
    cases hsettings.symm.trans hsettings'
    cases hcopy.symm.trans hcopy'
  | unopened hsettings' hcopy' hsession' =>
    cases hsettings.symm.trans hsettings'
    cases hcopy.symm.trans hcopy'
    cases hsession.symm.trans hsession'
  | failed hsettings' hcopy' hsession' hall hfailed hleft =>
    cases hsettings.symm.trans hsettings'
    cases hcopy.symm.trans hcopy'
    cases hsession.symm.trans hsession'
    rw [hready.copy_eq] at hall
    obtain ⟨done, tried, hdone, htried, hprefix, hfetched⟩ := hready.copyAll_eq_error hall
    exact .failed hR hL hfailed hdone htried hprefix (hfetched.still hleft)
  | @done _ _ _ t _ _ w₃ hsettings' hcopy' hsession' hall =>
    cases hsettings.symm.trans hsettings'
    cases hcopy.symm.trans hcopy'
    cases hsession.symm.trans hsession'
    rw [hready.copy_eq] at hall
    obtain ⟨copied, hfetched, hstores, hquiet⟩ := hready.copyAll_eq_ok hall
    have hclosed := Workspace.closeHandle_still target w₃
    have hlast :=
      (hclosed.writes fun _ => False).trans _ _ _ (Workspace.print_within _ (summary t) _)
    exact .done (s := t) hR hL hfetched (hstores.append (.of_stay hlast))
      (congrArg (· ++ [(summary t).withoutControl]) (hquiet.trans _ _ _ hclosed.quiet))

/-- **A plan changes no file, whatever its outcome, and foretells the synchronisation.** If it is
    shown, then a synchronisation with the same settings, from the same files and whatever else was
    done in between, fetches the chunks that are listed, in their order: all of them if it succeeds,
    and if it fails the first ones. -/
theorem plan_foretells_sync {format : Text} (h : runPlan homes request format w = (outcome, w')) :
    (w'.disk = w.disk ∧ w'.memory = w.memory) ∧
    (outcome = .done → ∃ settings s, request.settings w.disk = .ok settings ∧
      Shown homes settings format w s w' ∧
      ∀ (request' : Request) (now : Moment) (v : Workspace) (outcome' : Outcome) (v' : Workspace),
        v.disk = w.disk → v.memory = w.memory → request'.settings v.disk = .ok settings →
        runSync homes request' now v = (outcome', v') →
        Foretold homes settings s.plan.chunkNames v outcome' v') := by
  have huntouched := runPlan_untouched homes request format w
  rw [h] at huntouched
  refine ⟨⟨huntouched.disk, huntouched.memory⟩, ?_⟩
  rintro rfl
  obtain ⟨settings, s, hsettings, hshown⟩ := shown_of_done h
  refine ⟨settings, s, hsettings, hshown,
    fun request' now v outcome' v' hdisk hmemory hsettings' h' => ?_⟩
  obtain ⟨opened, u, hsession, rfl⟩ := hshown.opened
  obtain ⟨R, location, hR, hlocation⟩ := exists_locations hsession
  cases location with
  | none =>
    have hcopy : settings.openCopy homes v = (.ok none, v) := by
      unfold Settings.openCopy
      rw [hlocation]
      rfl
    simp only [runSync, hsettings', hcopy] at h'
    cases h'
    exact .uncopied hlocation
  | some L =>
    have hplan : settings.planIn homes w = .ok opened.session.plan := by
      unfold Settings.planIn
      rw [hsession]
      rfl
    rw [← Settings.planIn_of_same hR hlocation hdisk hmemory] at hplan
    exact runSync_foretold hsettings' hR hlocation hplan h'

end Sync

/-- The plan for the copy that is two chunks behind lists both of them; the synchronisation after it
    fetches the first one and then fails. -/
theorem plan_foretells_sync_chunkMissing :
    ∃ settings s w₁ w₂, runPlan [] ⟨some "r", some "l", none⟩ "json" chunkMissing = (.done, w₁) ∧
      Shown [] settings "json" chunkMissing s w₁ ∧ s.plan.chunkNames = [chunkName 8, chunkName 9] ∧
      runSync [] ⟨some "r", some "l", none⟩ .earliest w₁ = (.reported, w₂) ∧
      w₂.file? (.disk ["l", chunkName 8]) = some [1, 2, 3] ∧
      Foretold [] settings s.plan.chunkNames w₁ .reported w₂ := by
  let request : Request := ⟨some "r", some "l", none⟩
  have hrun : isDoneWith (fun w₁ => match runSync [] request .earliest w₁ with
      | (.reported, w₂) => decide (w₂.file? (.disk ["l", chunkName 8]) = some [1, 2, 3])
      | _ => false) (runPlan [] request "json" chunkMissing) = true := by
    decide +kernel
  obtain ⟨w₁, hplan, hsync⟩ := exists_of_isDoneWith hrun
  obtain ⟨⟨hdisk, hmemory⟩, hforetold⟩ := plan_foretells_sync hplan
  obtain ⟨settings, s, hsettings, hshown, hforetold⟩ := hforetold rfl
  obtain ⟨opened, u, hsession, hopened⟩ := hshown.opened
  have hplanned : (settings.planIn [] chunkMissing).toOption = some (.incremental 8 9) := by
    cases hsettings
    decide +kernel
  rw [Settings.planIn, hsession] at hplanned
  have hs : s.plan = .incremental 8 9 := hopened ▸ Option.some.inj hplanned
  rcases h : runSync [] request .earliest w₁ with ⟨outcome, w₂⟩
  rw [h] at hsync
  cases outcome with
  | reported =>
    refine ⟨settings, s, w₁, w₂, hplan, hshown, by rw [hs]; rfl, h, of_decide_eq_true hsync, ?_⟩
    exact hforetold request .earliest w₁ .reported w₂ hdisk hmemory (hdisk ▸ hsettings) h
  | done => cases hsync
  | refused => cases hsync

end Command

end IndexChain
