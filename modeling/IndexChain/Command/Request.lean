import IndexChain.Refusal
import IndexChain.Storage.Disk
import IndexChain.Text.Utf8
import IndexChain.Yaml.Document

/-!
# Requests

A request says which places to work between, by itself or by a file of settings. What it says itself
goes before what the file says.
-/

namespace IndexChain

/-- The settings in a document: under a key of their own or standing alone. A document that says
nothing stands for no settings at all. -/
def Settings.ofDocument (v : Value) : Settings.Checked Settings :=
  let v := if v.isEmpty then .mapping [] else v
  Settings.ofValue ((v.field? "sync").getD v)

def Settings.ofFile (disk : Disk) (path : Text) : Except Refusal Settings := do
  let content ← (disk.readFile (.ofText path)).mapError Refusal.fault
  match Text.ofUtf8? content with
  | none => .error .notText
  | some t =>
    let v ← (Yaml.read t).mapError Refusal.badDocument
    (Settings.ofDocument v).mapError Refusal.badSettings

/-- What a command is asked to work on. -/
structure Request where
  remote : Option Text := none
  copy : Option Text := none
  /-- The path of a file of settings. -/
  config : Option Text := none
deriving DecidableEq

namespace Request

/-- Whether something was said. -/
def isSaid (t : Option Text) : Bool := t.any fun t => !t.isEmpty

def settings (disk : Disk) (r : Request) : Except Refusal Settings :=
  if isSaid r.config then do
    let s ← Settings.ofFile disk (r.config.getD [])
    return { s with
      remote := if isSaid r.remote then r.remote.getD [] else s.remote
      copy := if isSaid r.copy then r.copy else s.copy }
  else if isSaid r.remote then .ok { remote := r.remote.getD [], copy := r.copy }
  else .error (.misuse .missingRemote)

end Request

end IndexChain
