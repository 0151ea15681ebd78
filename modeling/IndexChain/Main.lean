import IndexChain.Command.Run
import Std.Time.DateTime.Timestamp

/-!
The command line. What a command needs of the disk is read into a workspace, the command is carried
out there, and what it changed is written back.
-/

namespace IndexChain.Program

def realPath (place : Disk.Place) : String := "/" ++ (Text.join "/" place).toString

/-- The place of a real path. -/
def placeOf (path : String) : Disk.Place := DiskPath.stepsOf (Text.ofString path)

/-- What is at a place, if there is anything. -/
def lookAt (place : Disk.Place) : IO (Option Disk.Entry) := do
  let path := (← IO.currentDir) / realPath place
  if ← path.isDir then return some .directory
  else if ← path.pathExists then return some (.file (← IO.FS.readBinFile path).toList)
  else return none

def load (disk : Disk) (place : Disk.Place) : IO Disk := do
  match ← lookAt place with
  | some entry => return { disk with entries := Pairs.set place entry disk.entries }
  | none => return disk

/-- The disk with all that a path leads over, and with what is in the directory at its end. -/
def loadPath (disk : Disk) (path : DiskPath) : IO Disk := do
  let mut disk := disk
  let mut place := if path.root = 0 then disk.workplace else []
  for step in path.steps do
    place := if step = DiskPath.upwards then place.dropLast else place ++ [step]
    disk ← load disk place
  let real := (← IO.currentDir) / realPath place
  if ← real.isDir then
    for entry in ← real.readDir do
      disk ← load disk (place ++ [Text.ofString entry.fileName])
  return disk

def paths (homes : DiskPath.Homes) (disk : Disk) (request : Request) : List DiskPath :=
  match request.settings disk with
  | .error _ => []
  | .ok settings =>
    let remote := settings.remoteLocation.toOption.toList
    let copy := ((settings.copyLocation homes).toOption.bind id).toList
    (remote ++ copy).filterMap fun
      | .disk path => some path
      | .memory _ => none

def requestOf : Command → Request
  | .plan request _ | .sync request => request

/-- The workspace that a command starts in. -/
def workspaceFor (homes : DiskPath.Homes) (words : List Text) : IO Workspace := do
  let mut disk : Disk := ⟨placeOf (← IO.currentDir).toString, []⟩
  match Command.Line.ofWords words with
  | .error _ => return { disk }
  | .ok line =>
    let request := requestOf line.command
    if let some config := request.config then disk ← loadPath disk (.ofText config)
    for path in paths homes disk request do disk ← loadPath disk path
    return { disk }

/-- Writes back what changed on the disk. -/
def store (before after : Disk) : IO Unit := do
  for (place, entry) in after.entries do
    if before.entry? place ≠ some entry then
      match entry with
      | .directory => IO.FS.createDirAll (realPath place)
      | .file content => IO.FS.writeBinFile (realPath place) ⟨content.toArray⟩

/-- The time, in UTC. -/
def now : IO Moment := do
  let stamp ← Std.Time.Timestamp.now
  return (Moment.ofUnixSeconds? stamp.toSecondsSinceUnixEpoch.val).getD .earliest

end IndexChain.Program

open IndexChain IndexChain.Program in
/-- Carries out what the words of the command line ask for. -/
def main (args : List String) : IO UInt32 := do
  let homes : DiskPath.Homes :=
    ((← IO.getEnv "HOME").map fun home => ([], Text.ofString home)).toList
  let words := args.map Text.ofString
  let before ← workspaceFor homes words
  let (outcome, after) := Command.runWords homes (← now) words before
  store before.disk after.disk
  for record in after.journal do IO.eprintln record.value.jsonLine.toString
  for line in after.printed do IO.println line.toString
  for line in after.complaints do IO.eprintln line.toString
  match outcome with
  | .done => return 0
  | .reported => return 1
  | .refused refusal =>
    IO.eprintln ("Error: " ++ refusal.message.toString)
    return 2
