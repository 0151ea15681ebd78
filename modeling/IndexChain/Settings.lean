import IndexChain.Handover
import IndexChain.Location
import IndexChain.Pairs
import IndexChain.Text.Utf8
import IndexChain.Value.Shown

/-!
# Settings

What a synchronisation needs to know: where the published index and the copy are, options for either
place, and the comment to record. Settings are read from a value; what is wrong with it is said
place by place.
-/

namespace IndexChain

/-- The settings of a synchronisation. -/
structure Settings where
  /-- Where the index is published. -/
  remote : Text
  /-- Where the copy is, if there is one. -/
  copy : Option Text := none
  remoteOptions : List (Text × Value) := []
  copyOptions : List (Text × Value) := []
  /-- The comment that is recorded with an update. -/
  comment : Text := Handover.defaultComment

namespace Settings

/-! ## 1. What can be wrong -/

/-- What is wrong at a place. -/
inductive Problem
  | notMapping
  | unknownKey
  | badKey
  | missing
  /-- The settings themselves are not a mapping. -/
  | notSettings
  | notText
  /-- There is a text, but one that no bytes stand for. -/
  | notUnicode
deriving DecidableEq

/-- What is wrong with a value, and where in it. -/
structure Violation where
  place : List Text
  problem : Problem
deriving DecidableEq

/-- Whether a text comes no later than another one, by its code points. -/
def noLater : Text → Text → Bool
  | [], _ => true
  | _ :: _, [] => false
  | a :: s, b :: t => a.val < b.val || (a.val == b.val && noLater s t)

/-- Whether a place comes no later than another one. -/
def placeNoLater : List Text → List Text → Bool
  | [], _ => true
  | _ :: _, [] => false
  | a :: s, b :: t => if a = b then placeNoLater s t else noLater a b

/-- The order in which problems at one place are named. -/
def Problem.rank : Problem → Nat
  | notMapping => 0
  | unknownKey => 1
  | badKey => 2
  | missing => 3
  | notSettings => 4
  | notText => 5
  | notUnicode => 6

/-- Violations in the order of their places. -/
def sorted (vs : List Violation) : List Violation :=
  vs.mergeSort fun a b =>
    if a.place = b.place then a.problem.rank ≤ b.problem.rank else placeNoLater a.place b.place

/-- A key as a step of a place. -/
def keyStep : Value → Text
  | .text t => t
  | .bool true => "1"
  | .bool false => "0"
  | v => v.shown

/-! ## 2. Reading settings -/

/-- The keys of settings. -/
def remoteKey : Text := "remote"
def copyKey : Text := "local"
def remoteOptionsKey : Text := "remote_options"
def copyOptionsKey : Text := "local_options"
def commentKey : Text := "comment"

/-- All keys of settings. -/
def keys : List Text := [remoteKey, copyKey, remoteOptionsKey, copyOptionsKey, commentKey]

/-- What was read, or what is wrong. -/
abbrev Checked (α : Type) := Except (List Violation) α

/-- The text of a value: a text, or bytes that stand for one. -/
def asText : Value → Except Problem Text
  | .text t => .ok t
  | .bytes content =>
    match Text.ofUtf8? content with
    | some t => .ok t
    | none => .error .notUnicode
  | _ => .error .notText

/-- A text under a key. -/
def textAt (key : Text) (v : Value) : Checked Text :=
  (asText v).mapError fun problem => [⟨[key], problem⟩]

/-- A text or nothing under a key. -/
def optionalTextAt (key : Text) : Value → Checked (Option Text)
  | .null => .ok none
  | v => (textAt key v).map some

/-- What is wrong with the keys of options. -/
def optionViolations (key : Text) (pairs : List (Value × Value)) : List Violation :=
  pairs.filterMap fun (k, _) =>
    match asText k with
    | .ok _ => none
    | .error problem => some ⟨[key, keyStep k, "[key]"], problem⟩

/-- Options under a key: a mapping whose keys are texts. -/
def optionsAt (key : Text) : Value → Checked (List (Text × Value))
  | .mapping pairs =>
    match optionViolations key pairs with
    | [] => .ok <| Pairs.ofList <| pairs.filterMap fun (k, v) => (asText k).toOption.map (·, v)
    | violations => .error violations
  | _ => .error [⟨[key], .notMapping⟩]

/-- What is wrong with the keys of a mapping. -/
def keyViolations (pairs : List (Value × Value)) : List Violation :=
  pairs.filterMap fun (k, _) =>
    match k with
    | .text t => if keys.contains t then none else some ⟨[t], .unknownKey⟩
    | k => some ⟨[keyStep k], .badKey⟩

/-- Whether a key is a text that no bytes stand for. -/
def isBrokenText : Value → Bool
  | .text t => t.any CodePoint.isSurrogate
  | _ => false

/-- What is wrong with something. -/
def violationsOf {α : Type} : Checked α → List Violation
  | .ok _ => []
  | .error vs => vs

/-- The value under a key, read in some way; what stands for an absent one is given. -/
def entry {α : Type} (pairs : List (Value × Value)) (key : Text) (absent : Checked α)
    (read : Text → Value → Checked α) : Checked α :=
  match Value.field? key (.mapping pairs) with
  | none => absent
  | some v => read key v

/-- The settings that the entries of a mapping write, or all that is wrong with them. -/
def ofPairs (pairs : List (Value × Value)) : Checked Settings :=
  let remote := entry pairs remoteKey (.error [⟨[remoteKey], .missing⟩]) textAt
  let copy := entry pairs copyKey (.ok none) optionalTextAt
  let remoteOptions := entry pairs remoteOptionsKey (.ok []) optionsAt
  let copyOptions := entry pairs copyOptionsKey (.ok []) optionsAt
  let comment := entry pairs commentKey (.ok Handover.defaultComment) textAt
  match remote, copy, remoteOptions, copyOptions, comment, keyViolations pairs with
  | .ok remote, .ok copy, .ok remoteOptions, .ok copyOptions, .ok comment, [] =>
    .ok ⟨remote, copy, remoteOptions, copyOptions, comment⟩
  | remote, copy, remoteOptions, copyOptions, comment, unknown =>
    .error <| sorted <|
      violationsOf remote ++ violationsOf copy ++ violationsOf remoteOptions ++
        violationsOf copyOptions ++ violationsOf comment ++ unknown

/-- The settings that a value writes, or all that is wrong with it. Where a key is a text that no
bytes stand for, nothing else is looked at. -/
def ofValue (v : Value) : Checked Settings :=
  match v with
  | .mapping pairs =>
    if pairs.any fun (k, _) => isBrokenText k then .error [⟨[], .notUnicode⟩] else ofPairs pairs
  | _ => .error [⟨[], .notSettings⟩]

def toValue (s : Settings) : Value := .record [
  (remoteKey, .text s.remote),
  (copyKey, .ofText? s.copy),
  (remoteOptionsKey, .record s.remoteOptions),
  (copyOptionsKey, .record s.copyOptions),
  (commentKey, .text s.comment)]

/-! ## 3. Locations -/

/-- The names that no option may have, since what an option is given to goes by them. -/
def reservedOptions : List Text := ["root", "self", "cls"]

/-- The option that asks for a store. -/
def storeOption : Text := "protocol"

/-- The store that options ask for by its name. What counts as nothing asks for none. -/
def askedStore (options : List (Text × Value)) : Except Fault (Option Text) :=
  if options.any fun (key, _) => reservedOptions.contains key then .error .badArgument
  else
    match (Pairs.get? storeOption options).filter (!·.isEmpty) with
    | none => .ok none
    | some (.text t) => .ok (some t)
    | some (.list _) | some (.set _) | some (.mapping _) => .error .badArgument
    | some _ => .error (.invalidValue none)

/-- The location of the published index. -/
def remoteLocation (s : Settings) : Except Fault Location := do
  Location.ofText s.remote (← askedStore s.remoteOptions)

def copyLocation (homes : DiskPath.Homes) (s : Settings) : Except Fault (Option Location) := do
  match s.copy with
  | none => return none
  | some t =>
    let path ← Location.copyPath? homes t
    let asked ← askedStore s.copyOptions
    match path, asked with
    | none, asked => return some (← Location.ofText t asked)
    | some path, none => return some (.disk path)
    | some path, some store => return some (← Location.inStore store path.text)

end Settings

end IndexChain
