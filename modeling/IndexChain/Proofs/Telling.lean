import IndexChain.Proofs.Setup
import IndexChain.Proofs.Stopping

/-!
# Telling — which failures of a command are told

A command whose settings make sense fails of something that is to be reported, that is of input or
output or by this library, or of something else. **What is to be reported is told in one line,
unless it is in the way of storing** (`tells_unless_hindered`): a plan, and a synchronisation up to
its first chunk, tell all of it, and chunks that cannot be opened are told by their names. But a
synchronisation does not look at what its copy makes of a chunk or of the manifest. If that is a
failure of input or output, it is thrown at whoever started the command, and nothing is told.

Whether something is in the way can be known beforehand (`Hindered`), and then the synchronisation
does not succeed.
-/

namespace IndexChain

open Workspace (Keeps isAside_complaints looksWithin_keeps looksWithin_still isOfStore depots)

namespace Command

variable {homes : DiskPath.Homes} {settings : Settings} {request : Request} {format : Text}
    {now : Moment}
  {w w' : Workspace} {R L : Location} {fault : Fault}

/-! ## 1. Locations that make no sense -/

theorem isReported_of_askedStore {options : List (Text × Value)}
    (h : Settings.askedStore options = .error fault) : isReported fault = false := by
  unfold Settings.askedStore at h
  split at h
  · cases h
    rfl
  split at h
  all_goals
    cases h
    try rfl

theorem isReported_of_inStore {store path : Text} (h : Location.inStore store path = .error fault) :
    isReported fault = false := by
  unfold Location.inStore at h
  split at h
  · cases h
  split at h
  · cases h
  · cases h
    rfl

theorem isReported_of_ofText {t : Text} {asked : Option Text}
    (h : Location.ofText t asked = .error fault) : isReported fault = false := by
  unfold Location.ofText at h
  split at h
  · cases h
  · exact isReported_of_inStore h
  · simp only at h
    split at h
    · cases h
    · cases h
      rfl

theorem isReported_of_remoteLocation (h : settings.remoteLocation = .error fault) :
    isReported fault = false := by
  unfold Settings.remoteLocation at h
  cases hasked : Settings.askedStore settings.remoteOptions with
  | error fault' =>
    rw [hasked] at h
    cases h
    exact isReported_of_askedStore hasked
  | ok asked =>
    rw [hasked] at h
    exact isReported_of_ofText h

theorem isReported_of_copyLocation (h : settings.copyLocation homes = .error fault) :
    isReported fault = false := by
  unfold Settings.copyLocation at h
  cases hcopy : settings.copy with
  | none =>
    rw [hcopy] at h
    cases h
  | some t =>
    rw [hcopy] at h
    simp only at h
    cases hpath : Location.copyPath? homes t with
    | error fault' =>
      rw [hpath] at h
      cases h
      unfold Location.copyPath? at hpath
      split at hpath
      · cases hpath
      split at hpath
      · cases hpath
      · cases hpath
        rfl
    | ok path =>
      rw [hpath] at h
      cases hasked : Settings.askedStore settings.copyOptions with
      | error fault' =>
        rw [hasked] at h
        cases h
        exact isReported_of_askedStore hasked
      | ok asked =>
        rw [hasked] at h
        have hmap {e : Except Fault Location} (h : (do return some (← e)) = Except.error fault) :
            e = .error fault := by
          cases e <;> cases h
          rfl
        rcases path with _ | path
        · exact isReported_of_ofText (hmap h)
        · rcases asked with _ | store
          · cases h
          · exact isReported_of_inStore (hmap h)

/-! ## 2. What a synchronisation is up to -/

/-- Whatever the published index is, the same files lead to the same plan for a copy. -/
theorem planIn_of_copyLocation (hL : settings.copyLocation homes = .ok (some L))
    (hdisk : w'.disk = w.disk) (hmemory : w'.memory = w.memory) :
    settings.planIn homes w' = settings.planIn homes w := by
  cases hR : settings.remoteLocation with
  | ok R => exact Settings.planIn_of_same hR hL hdisk hmemory
  | error fault =>
    have hplan (v : Workspace) : settings.planIn homes v = .error fault := by
      unfold Settings.planIn Settings.openSession
      rw [hR]
      rfl
    rw [hplan, hplan]

/-- Something is in the way of storing what is planned, at the location of the copy. -/
def Hindered (homes : DiskPath.Homes) (settings : Settings) (w : Workspace) (fault : Fault) :
    Prop :=
  ∃ L plan, settings.copyLocation homes = .ok (some L) ∧ settings.planIn homes w = .ok plan ∧
    ∃ name ∈ plan.chunkNames ++ [Manifest.resourceName], w.hindrance? L name = some fault

/-- What a synchronisation fails of that is told: that it cannot be planned, or that a planned chunk
cannot be opened. -/
inductive Fails (homes : DiskPath.Homes) (settings : Settings) (w : Workspace) : Fault → Prop
  | unplanned {fault : Fault} (hplan : settings.planIn homes w = .error fault) :
      Fails homes settings w fault
  | unopened {plan : Plan} {name : Text} {cause : Fault}
      (hplan : settings.planIn homes w = .ok plan) (hname : name ∈ plan.chunkNames)
      (hcause : cause.isIo = true) :
      Fails homes settings w (.chunkUnavailable name (some cause))

/-- The handles of a synchronisation: the one that chunks are stored by, and behind it those of the
session. -/
theorem handles_of_opened {target : HandleId} {opened : Opened} {w₁ w₂ : Workspace}
    (hR : settings.remoteLocation = .ok R) (hL : settings.copyLocation homes = .ok (some L))
    (hcopy : settings.openCopy homes w = (.ok (some target), w₁))
    (hsession : settings.openSession homes w₁ = (.ok opened, w₂)) :
    target = w.handles.length ∧ opened.remote = w.handles.length + 1 ∧
    opened.copy = some (w.handles.length + 2) ∧
      w₂.handles = w.handles ++ [{ location := L }, { location := R }, { location := L }] := by
  have hopened := (Settings.openCopy_ok hL w).symm.trans hcopy
  have htarget : w.handles.length = target :=
    Option.some.inj (Except.ok.inj (congrArg Prod.fst hopened))
  have hhandles : w₁.handles = w.handles ++ [{ location := L }] :=
    (congrArg Workspace.handles (congrArg Prod.snd hopened)).symm
  have hlength : w₁.handles.length = w.handles.length + 1 := by
    rw [hhandles]
    exact List.length_append
  obtain ⟨hremote, hcopied, hhandles'⟩ := Settings.handles_of_openSession hR hL hsession
  refine ⟨htarget.symm, hremote.trans hlength, ?_, ?_⟩
  · exact hcopied.trans (congrArg (fun n => some (n + 1)) hlength)
  · rw [hhandles', hhandles, List.append_assoc]
    rfl

/-- **Copying stops for reasons that are known before anything was opened**, but for chunks that
cannot be opened. -/
theorem copyAll_of_openSession {target : HandleId} {opened : Opened}
    {o : Except Fault Unit} {t : Session} {w₁ w₂ w₃ : Workspace}
    (hcopy : settings.openCopy homes w = (.ok (some target), w₁))
    (hsession : settings.openSession homes w₁ = (.ok opened, w₂))
    (hall : copyAll (depots opened.remote opened.copy) target now (opened.session, w₂) =
      (o, t, w₃)) :
    ∃ L, settings.copyLocation homes = .ok (some L) ∧
    settings.planIn homes w = .ok opened.session.plan ∧
      Keeps Workspace.complaints w w₃ ∧
      (∀ fault, o = .error fault → Stops L w opened.session.plan fault) ∧
      (o = .ok () → ∀ name ∈ opened.session.plan.chunkNames ++ [Manifest.resourceName],
        w.hindrance? L name = none) := by
  obtain ⟨R, _, hR, -⟩ := exists_locations hsession
  obtain ⟨L, hL⟩ := exists_copyLocation hcopy
  obtain ⟨copy, u, hready⟩ := exists_ready hR hL hcopy hsession
  obtain ⟨rfl, hremote, hcopied, hhandles⟩ := handles_of_opened hR hL hcopy hsession
  rw [hremote, hcopied] at hall
  have hstoring : w₂.handles[w.handles.length]? = some { location := L } := by simp [hhandles]
  have hreading : w₂.handles[w.handles.length + 1]? = some { location := R } := by simp [hhandles]
  have hrecording : w₂.handles[w.handles.length + 2]? = some { location := L } := by simp [hhandles]
  obtain ⟨hkept, hstops, hfree⟩ :=
    copyAll_stops hready.established.isFresh hready.established.hasCopy_eq
    (Nat.succ_ne_self _).symm hreading hrecording hstoring hall
  -- opening has changed nothing that matters
  have hsame := (hready.before.trans _ _ _ hready.reading).toUntouched
  have hhindrance (name : Text) : w₂.hindrance? L name = w.hindrance? L name :=
    Workspace.hindrance?_of_same hsame.disk hsame.memory L name
  have hopening := (openCopy_within looksWithin_still homes settings).of_eq hcopy
  have hlooks := looksWithin_keeps isAside_complaints
  have hopened := ((openCopy_within hlooks homes settings).of_eq hcopy).trans _ _ _
    ((openSession_within hlooks homes settings).of_eq hsession)
  refine ⟨L, hL, ?_, hopened.trans _ _ _ hkept, fun fault hfault => ?_, fun hdone name hname => ?_⟩
  · rw [← planIn_of_copyLocation hL hopening.disk hopening.memory]
    unfold Settings.planIn
    rw [hsession]
    rfl
  · cases hstops fault hfault with
    | unopened hname hcause => exact .unopened hname hcause
    | hindered hname hfault => exact .hindered hname (hhindrance _ ▸ hfault)
    | other hother => exact .other hother
  · rw [← hhindrance]
    exact hfree hdone name hname

/-! ## 3. What is told -/

/-- The line about a failure. -/
def errorLine (fault : Fault) : Text := ("Error: " ++ fault.message).withoutControl

/-- What a command has told when it ends. -/
structure Tells (told thrown : Fault → Prop) (w : Workspace) (r : Outcome × Workspace) : Prop where
  /-- A failure that is reported is told in one line. -/
  reported : r.1 = .reported → ∃ fault, told fault ∧ isReported fault = true ∧
    r.2.complaints = w.complaints ++ [errorLine fault]
  /-- Otherwise nothing is told. -/
  silent : r.1 ≠ .reported → r.2.complaints = w.complaints
  /-- What would have to be reported is thrown in some cases only. -/
  thrown : ∀ fault, r.1 = .refused (.fault fault) → isReported fault = true → thrown fault

section Tells

variable {told thrown : Fault → Prop} {r : Outcome × Workspace}

theorem Tells.of_silent (hkept : Keeps Workspace.complaints w r.2) (hreported : r.1 ≠ .reported)
    (hthrown : ∀ fault, r.1 = .refused (.fault fault) → isReported fault = true → thrown fault) :
    Tells told thrown w r :=
  ⟨fun h => absurd h hreported, fun _ => hkept, hthrown⟩

theorem tells_done (hkept : Keeps Workspace.complaints w w') : Tells told thrown w (.done, w') := by
  apply Tells.of_silent hkept
  · intro h
    cases h
  · intro fault h
    cases h

theorem tells_misuse {misuse : Misuse} (hkept : Keeps Workspace.complaints w w') :
    Tells told thrown w (.refused (.misuse misuse), w') := by
  apply Tells.of_silent hkept
  · intro h
    cases h
  · intro fault h
    cases h

theorem tells_report (hkept : Keeps Workspace.complaints w w') (htold : told fault)
    (hreported : isReported fault = true) :
    Tells told thrown w (.reported, (report fault w').2) := by
  refine ⟨fun _ => ⟨fault, htold, hreported, ?_⟩, fun h => absurd rfl h, nofun⟩
  exact congrArg (· ++ [errorLine fault]) hkept

theorem tells_refused (hkept : Keeps Workspace.complaints w w') (hthrown : isReported fault = true →
    thrown fault) :
    Tells told thrown w (.refused (.fault fault), w') := by
  apply Tells.of_silent hkept
  · intro h
    cases h
  · intro fault' h
    cases h
    exact hthrown

theorem tells_failed (hkept : Keeps Workspace.complaints w w') (htold : told fault) :
    Tells told thrown w (failed fault w') := by
  unfold failed
  split
  · next hreported => exact tells_report hkept htold hreported
  · next hother => exact tells_refused hkept fun hreported => absurd hreported hother

theorem Tells.leave (h : Tells told thrown w r) (target : HandleId) :
    Tells told thrown w (leave target r) := by
  have hkept := (looksWithin_keeps isAside_complaints).closeHandle target r.2
  refine ⟨fun hreported => ?_, fun hsilent => Eq.trans hkept (h.silent hsilent), h.thrown⟩
  obtain ⟨fault, htold, hfault, hline⟩ := h.reported hreported
  exact ⟨fault, htold, hfault, Eq.trans hkept hline⟩

end Tells

/-! ## 4. Commands -/

theorem copyLocation_of_error (h : settings.openCopy homes w = (.error fault, w')) :
    settings.copyLocation homes = .error fault := by
  cases hL : settings.copyLocation homes with
  | error fault' =>
    unfold Settings.openCopy at h
    rw [hL] at h
    cases h
    rfl
  | ok location => cases (Settings.openCopy_ok hL w).symm.trans h

theorem planIn_of_error (h : settings.openSession homes w = (.error fault, w')) :
    settings.planIn homes w = .error fault := by
  unfold Settings.planIn
  rw [h]
  rfl

/-- **A plan tells all that is to be reported.** -/
theorem runPlan_tells (hsettings : request.settings w.disk = .ok settings) :
    Tells (fun fault => settings.planIn homes w = .error fault) (fun _ => False) w
      (runPlan homes request format w) := by
  have hlooks := looksWithin_keeps isAside_complaints
  have hopened := openSession_within hlooks homes settings w
  unfold runPlan
  rw [hsettings]
  simp only
  rcases hsession : settings.openSession homes w with ⟨fault | opened, w₁⟩
  · rw [hsession] at hopened
    exact tells_failed hopened (planIn_of_error hsession)
  · rw [hsession] at hopened
    have hclosed := close_ok opened.remote opened.copy opened.session w₁
    have hkept := close_within hlooks opened.remote opened.copy opened.session w₁
    simp only
    rcases hclose : Session.close (depots opened.remote opened.copy) (opened.session, w₁)
      with ⟨o, s, w₂⟩
    rw [hclose] at hclosed hkept
    cases hclosed
    have hkept := hopened.trans _ _ _ hkept
    simp only [showPlan]
    cases Report.Format.ofName? format with
    | none => exact tells_misuse hkept
    | some _ => exact tells_done hkept

/-- **A synchronisation tells all that is to be reported but what is in the way of storing.** -/
theorem runSync_tells (hsettings : request.settings w.disk = .ok settings) :
    Tells (Fails homes settings w) (fun fault => fault.isIo = true ∧
      Hindered homes settings w fault) w
      (runSync homes request now w) := by
  have hlooks := looksWithin_keeps isAside_complaints
  have hcopied := openCopy_within hlooks homes settings w
  have hopening := openCopy_within looksWithin_still homes settings w
  unfold runSync
  rw [hsettings]
  simp only
  rcases hcopy : settings.openCopy homes w with ⟨fault | _ | target, w₁⟩ <;>
    rw [hcopy] at hcopied hopening
  · -- the location of the copy makes no sense
    refine tells_refused hcopied fun hreported => ?_
    rw [isReported_of_copyLocation (copyLocation_of_error hcopy)] at hreported
    cases hreported
  · exact tells_misuse hcopied
  simp only
  have hopened := openSession_within hlooks homes settings w₁
  rcases hsession : settings.openSession homes w₁ with ⟨fault | opened, w₂⟩ <;>
    rw [hsession] at hopened
  · have hkept := hcopied.trans _ _ _ hopened
    obtain ⟨L, hL⟩ := exists_copyLocation hcopy
    have hplan := planIn_of_error hsession
    rw [planIn_of_copyLocation hL hopening.disk hopening.memory] at hplan
    simp only
    split
    · exact (tells_failed hkept (.unplanned hplan)).leave target
    · next hother => exact tells_refused hkept fun hreported => absurd hreported hother
  simp only
  rcases hall : copyAll (depots opened.remote opened.copy) target now (opened.session, w₂) with
    ⟨fault | ⟨⟩, t, w₃⟩
  · obtain ⟨L, hL, hplan, hkept, hstops, -⟩ := copyAll_of_openSession hcopy hsession hall
    simp only
    cases hstops fault rfl with
    | unopened hname hcause =>
      exact (tells_report hkept (.unopened hplan hname hcause) rfl).leave target
    | hindered hname hhindrance =>
      have hstore := Workspace.isOfStore_of_hindrance? hhindrance
      simp only [Workspace.phase?_of_isOfStore hstore, Option.isSome_none,
        Bool.false_eq_true, if_false]
      refine (tells_refused hkept fun hreported => ?_).leave target
      exact ⟨isIo_of_isReported hstore hreported, L, _, hL, hplan, _, hname, hhindrance⟩
    | other hother =>
      simp only [(Bool.or_eq_false_iff.mp hother).2, Bool.false_eq_true, if_false]
      refine (tells_refused hkept fun hreported => ?_).leave target
      rw [hother] at hreported
      cases hreported
  · obtain ⟨L, hL, hplan, hkept, -⟩ := copyAll_of_openSession hcopy hsession hall
    exact tells_done (hkept.trans _ _ _ (hlooks.closeHandle target w₃))

/-- Without a location for the copy there is nothing to report about the plan. -/
theorem isReported_of_misplaced {fault' : Fault} (hL : settings.copyLocation homes = .error fault')
    (hplan : settings.planIn homes w = .error fault) : isReported fault = false := by
  unfold Settings.planIn Settings.openSession at hplan
  cases hR : settings.remoteLocation with
  | error f =>
    rw [hR] at hplan
    cases hplan
    exact isReported_of_remoteLocation hR
  | ok R =>
    have hcopy (u : Workspace) : settings.openCopy homes u = (.error fault', u) := by
      unfold Settings.openCopy
      rw [hL]
      rfl
    rw [hR, Run.bind_of_ok (Settings.openAt_ok R w), Run.bind_of_error (hcopy _)] at hplan
    cases hplan
    exact isReported_of_copyLocation hL

theorem openSession_of_planIn (h : settings.planIn homes w = .error fault) :
    ∃ w', settings.openSession homes w = (.error fault, w') := by
  unfold Settings.planIn at h
  rcases hsession : settings.openSession homes w with ⟨o, w'⟩
  rw [hsession] at h
  obtain rfl := Run.map_eq_error_iff.mp h
  exact ⟨w', rfl⟩

/-- What keeps a command from planning is reported by either one, if it is of the kind that is
reported. -/
theorem reported_of_unplanned (hsettings : request.settings w.disk = .ok settings)
    (hplan : settings.planIn homes w = .error fault) (hreported : isReported fault = true) :
    (runPlan homes request format w).1 = .reported ∧
      (settings.copyLocation homes ≠ .ok none → (runSync homes request now w).1 = .reported) := by
  constructor
  · obtain ⟨w₁, hsession⟩ := openSession_of_planIn hplan
    unfold runPlan failed
    simp only [hsettings, hsession, hreported, if_true]
  · intro hsome
    cases hL : settings.copyLocation homes with
    | error fault' =>
      rw [isReported_of_misplaced hL hplan] at hreported
      cases hreported
    | ok location =>
      cases location with
      | none => exact absurd hL hsome
      | some L =>
        have hcopy := Settings.openCopy_ok hL w
        have hsame : settings.planIn homes (w.withHandles [{ location := L }]) =
            settings.planIn homes w :=
          planIn_of_copyLocation hL rfl rfl
        obtain ⟨w₁, hsession⟩ := openSession_of_planIn (hsame.trans hplan)
        unfold runSync leave failed
        simp only [hsettings, hcopy, Option.map_some, Option.toList_some, List.map_cons,
          List.map_nil, hsession, hreported, if_true]

/-- **Where something is in the way, a synchronisation does not succeed.** -/
theorem runSync_ne_done (hsettings : request.settings w.disk = .ok settings)
    (h : Hindered homes settings w fault) : (runSync homes request now w).1 ≠ .done := by
  obtain ⟨L, plan, hL, hplan, name, hname, hfault⟩ := h
  have hend := syncEnd homes request now w
  generalize runSync homes request now w = r at hend
  rcases r with ⟨outcome, w'⟩
  intro hdone
  cases hend with
  | unset => cases hdone
  | misplaced => cases hdone
  | uncopied => cases hdone
  | unopened _ _ _ hfailed => exact hfailed hdone
  | failed _ _ _ _ hfailed => exact hfailed hdone
  | done hsettings' hcopy hsession hall =>
    obtain rfl := Except.ok.inj (hsettings.symm.trans hsettings')
    obtain ⟨L', hL', hplan', -, -, hfree⟩ := copyAll_of_openSession hcopy hsession hall
    cases hL.symm.trans hL'
    obtain rfl := Except.ok.inj (hplan.symm.trans hplan')
    rw [hfree rfl name hname] at hfault
    cases hfault

/-- **A command that fails of what is to be reported tells it in one line, unless that is in the way
of storing.** A plan never throws it. A synchronisation tells what keeps it from planning and what
keeps a planned chunk from being opened; it throws only what is in the way of a planned chunk or of
the manifest at the copy, which is known beforehand, and with that it never succeeds. -/
theorem tells_unless_hindered (hsettings : request.settings w.disk = .ok settings) :
    Tells (fun fault => settings.planIn homes w = .error fault) (fun _ => False) w
        (runPlan homes request format w) ∧
      Tells (Fails homes settings w) (fun fault => fault.isIo = true ∧
        Hindered homes settings w fault) w
        (runSync homes request now w) ∧
      (∀ fault, settings.planIn homes w = .error fault → isReported fault = true →
        (runPlan homes request format w).1 = .reported ∧
          (settings.copyLocation homes ≠ .ok none → (runSync homes request now w).1 = .reported)) ∧
      ((∃ fault, Hindered homes settings w fault) → (runSync homes request now w).1 ≠ .done) := by
  refine ⟨runPlan_tells hsettings, runSync_tells hsettings, fun fault hplan hreported => ?_, ?_⟩
  · exact reported_of_unplanned hsettings hplan hreported
  · rintro ⟨fault, hhindered⟩
    exact runSync_ne_done hsettings hhindered

/-- The copy that is two chunks behind is told that the second one cannot be opened. -/
theorem tells_chunkMissing :
    ∃ w' fault, runSync [] ⟨some "r", some "l", none⟩ .earliest chunkMissing = (.reported, w') ∧
      Fails [] { remote := "r", copy := some "l" } chunkMissing fault ∧
      w'.complaints = [errorLine fault] := by
  obtain ⟨-, htells, -⟩ := @tells_unless_hindered [] { remote := "r", copy := some "l" }
    ⟨some "r", some "l", none⟩ "" .earliest chunkMissing rfl
  rcases h : runSync [] ⟨some "r", some "l", none⟩ .earliest chunkMissing with ⟨outcome, w'⟩
  have hrun : (match runSync [] ⟨some "r", some "l", none⟩ .earliest chunkMissing with
      | (.reported, _) => true
      | _ => false) = true := by decide +kernel
  rw [h] at hrun htells
  cases outcome with
  | reported =>
    obtain ⟨fault, hfails, -, hline⟩ := htells.reported rfl
    exact ⟨w', fault, rfl, hfails, hline⟩
  | done => cases hrun
  | refused => cases hrun

/-- A copy whose whole index is a directory. -/
def barred : Workspace where
  disk := ⟨[], [(["r"], .directory), (["r", Manifest.resourceName], .file (manifestAt 8)),
    (["r", Plan.fullChunkName], .file [1, 2, 3]), (["b"], .directory),
    (["b", Plan.fullChunkName], .directory)]⟩

/-- **What is in the way of storing is thrown**, and nobody is told. -/
theorem thrown_barred :
    ∃ fault w', runSync [] ⟨some "r", some "b", none⟩ .earliest barred =
      (.refused (.fault fault), w') ∧
      fault.isIo = true ∧ w'.complaints = [] := by
  rcases h : runSync [] ⟨some "r", some "b", none⟩ .earliest barred with ⟨outcome, w'⟩
  have hrun : (match runSync [] ⟨some "r", some "b", none⟩ .earliest barred with
      | (.refused (.fault fault), w') => decide (fault.isIo = true ∧ w'.complaints = [])
      | _ => false) = true := by decide +kernel
  rw [h] at hrun
  cases outcome with
  | refused refusal =>
    cases refusal with
    | fault fault => exact ⟨fault, w', rfl, of_decide_eq_true hrun⟩
    | _ => cases hrun
  | done => cases hrun
  | reported => cases hrun

end Command

end IndexChain
