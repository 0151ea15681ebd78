import IndexChain.Command.Line
import IndexChain.Report
import IndexChain.Session
import IndexChain.Workspace

/-!
# Carrying out commands

A plan is shown without fetching anything. A synchronisation copies the planned chunks one after the
other into the copy and then records the update, so that what is recorded was copied. Failures of
input and output, and those of the library, are reported; others end the command as they are.
-/

namespace IndexChain

/-- How a command ended. -/
inductive Command.Outcome
  | done
  /-- Something failed, and that was printed. -/
  | reported
  | refused (refusal : Refusal)

/-- The handles and the session that settings open. -/
structure Opened where
  remote : HandleId
  copy : Option HandleId
  session : Session

namespace Settings

/-- Opens a handle on a location that may not make sense. -/
def openAt (location : Except Fault Location) : Run Workspace HandleId := do
  Workspace.openHandle (← Run.ofExcept location)

def openCopy (homes : DiskPath.Homes) (s : Settings) : Run Workspace (Option HandleId) := do
  match ← Run.ofExcept (s.copyLocation homes) with
  | none => return none
  | some location => return some (← Workspace.openHandle location)

/-- Opens the handles and a session between them. If there is no session the handles are closed
again. -/
def openSession (homes : DiskPath.Homes) (s : Settings) : Run Workspace Opened := do
  let remote ← openAt s.remoteLocation
  let copy ← s.openCopy homes
  let places := Workspace.depots remote copy
  let session ← (Session.establish places copy.isSome (some s.comment)).recover Fault.isOrdinary
    fun fault => do
      Session.release places copy.isSome
      Run.fail fault
  return ⟨remote, copy, session⟩

end Settings

namespace Command

/-- Whether a failure is reported. -/
def isReported (fault : Fault) : Bool := fault.isIo || fault.phase?.isSome

/-- Prints what went wrong. -/
def report (fault : Fault) : Run Workspace Unit := Workspace.complain ("Error: " ++ fault.message)

/-- The end of a command that failed. -/
def failed (fault : Fault) (w : Workspace) : Outcome × Workspace :=
  if isReported fault then (.reported, (report fault w).2) else (.refused (.fault fault), w)

/-! ## 1. Plans -/

/-- What a plan shows. -/
def planReport (s : Session) : Report := [
  ("index_id", .ofText? s.published.indexId),
  ("published", .text s.publishedAt.isoText),
  ("mode", .text s.plan.modeName),
  ("reason", .ofText? (s.plan.reason?.map fun r => Text.ofString r.name)),
  ("chunks", .list (s.plan.chunkNames.map .text))]

def showPlan (format : Text) (s : Session) (w : Workspace) : Outcome × Workspace :=
  match Report.Format.ofName? format with
  | none => (.refused (.misuse (.unknownFormat format)), w)
  | some format => (.done, (Workspace.print (Report.shownAs (planReport s) format) w).2)

/-- Shows which chunks a synchronisation would fetch. -/
def runPlan (homes : DiskPath.Homes) (request : Request) (format : Text) (w : Workspace) :
    Outcome × Workspace :=
  match request.settings w.disk with
  | .error refusal => (.refused refusal, w)
  | .ok settings =>
    match settings.openSession homes w with
    | (.error fault, w) => failed fault w
    | (.ok opened, w) =>
      match Session.close (Workspace.depots opened.remote opened.copy) (opened.session, w) with
      | (.error fault, _, w) => (.refused (.fault fault), w)
      | (.ok (), s, w) => showPlan format s w

/-! ## 2. Synchronisations -/

def copyChunk (places : Depots Workspace) (target : HandleId) (chunk : Chunk) :
    Run Workspace Unit := do
  Workspace.save target chunk.name (chunk.read places none)
  Workspace.print ("Fetched " ++ chunk.name)

/-- Copies all planned chunks and records the update. -/
def copyAll (places : Depots Workspace) (target : HandleId) (now : Moment) :
    Run (Session × Workspace) Unit :=
  Session.during places now do
    let _ ← Session.consumeAll places fun _ chunk =>
      Session.onDepots (copyChunk places target chunk)
    return ()

/-- The line about a synchronisation that succeeded. -/
def summary (s : Session) : Text :=
  "Synced " ++ Fault.shownId s.published.indexId ++ " (" ++ Text.ofString s.plan.modeName ++ ", " ++
    Text.ofNat s.plan.chunkNames.length ++ " chunks)"

/-- Closes the handle chunks are stored by, which happens at the end of a command in any case. -/
def leave (target : HandleId) (r : Outcome × Workspace) : Outcome × Workspace :=
  (r.1, (Workspace.closeHandle target r.2).2)

/-- Brings the copy up to date with the published index. -/
def runSync (homes : DiskPath.Homes) (request : Request) (now : Moment) (w : Workspace) :
    Outcome × Workspace :=
  match request.settings w.disk with
  | .error refusal => (.refused refusal, w)
  | .ok settings =>
    match settings.openCopy homes w with
    | (.error fault, w) => (.refused (.fault fault), w)
    | (.ok none, w) => (.refused (.misuse .missingCopy), w)
    | (.ok (some target), w) =>
      match settings.openSession homes w with
      | (.error fault, w) =>
        if isReported fault then leave target (failed fault w) else (.refused (.fault fault), w)
      | (.ok opened, w) =>
        let places := Workspace.depots opened.remote opened.copy
        match copyAll places target now (opened.session, w) with
        | (.error fault, _, w) =>
          if fault.phase?.isSome then leave target (.reported, (report fault w).2)
          else leave target (.refused (.fault fault), w)
        | (.ok (), s, w) =>
          let (_, w) := Workspace.closeHandle target w
          (.done, (Workspace.print (summary s) w).2)

/-- Carries out a command. -/
def run (homes : DiskPath.Homes) (now : Moment) : Command → Workspace → Outcome × Workspace
  | .plan request format => runPlan homes request format
  | .sync request => runSync homes request now

/-! ## 3. Command lines -/

/-- The rank from which on log records are kept. -/
def Line.threshold (line : Line) : Int :=
  if line.verbose then Level.debug.rank else Level.warning.rank

/-- Carries out what the words of a command line ask for. -/
def runWords (homes : DiskPath.Homes) (now : Moment) (words : List Text) (w : Workspace) :
    Outcome × Workspace :=
  match Line.ofWords words with
  | .error misuse => (.refused (.misuse misuse), w)
  | .ok line =>
    let (outcome, w) := run homes now line.command w
    (outcome, { w with journal := w.journal.filter (Record.isKept line.threshold) })

end Command

end IndexChain
