import IndexChain.Counter
import IndexChain.Entries.Written
import IndexChain.Moment.Stamp

/-!
# Manifests

A manifest is what an index says about itself: its entries, and the few of them that matter for
bringing a copy up to date. Only the id identifies the index; any other entry may be missing or make
no sense, and then counts as absent.

The manifest stands beside the chunks under a name of its own, `Manifest.resourceName`.
-/

namespace IndexChain

/-- An index's entries and what they mean. -/
structure Manifest where
  /-- All entries, as they were read. -/
  entries : Entries
  /-- Which index this is. -/
  indexId : Option Text
  /-- When the index was published, if that is stated and can be read. -/
  publishedAt : Option Moment
  /-- The unbroken line of publications that the chunks belong to. -/
  chainId : Option Text
  /-- The counter of the newest chunk. -/
  lastIncremental : Option Int
  /-- The counters of the chunks still on offer, in ascending order. -/
  markers : List Int

namespace Manifest

/-- The beginning of every resource name of an index. -/
def resourceStem : Text := "nexus-maven-repository-index"

/-- The name under which a manifest is stored. -/
def resourceName : Text := "nexus-maven-repository-index.properties"

def indexIdKey : Text := "nexus.index.id"

def timestampKey : Text := "nexus.index.timestamp"

def chainIdKey : Text := "nexus.index.chain-id"

def lastIncrementalKey : Text := "nexus.index.last-incremental"

/-- The beginning of the keys whose values are markers. -/
def markerKeyStem : Text := "nexus.index.incremental-"

/-- Adds a counter to an ascending list of counters, once. -/
def addMarker (n : Int) : List Int → List Int
  | [] => [n]
  | m :: rest => if n < m then n :: m :: rest else if n = m then m :: rest
    else m :: addMarker n rest

/-- Adds the markers among some entries to a list of counters. -/
def readMarkers (markers : List Int) : List (Text × Text) → Except Fault (List Int)
  | [] => .ok markers
  | (key, value) :: rest =>
    if key.beginsWith markerKeyStem then
      match Counter.ofText value with
      | .error fault => .error fault
      | .ok none => readMarkers markers rest
      | .ok (some n) => readMarkers (addMarker n markers) rest
    else readMarkers markers rest

/-- The moment of an optional stamp. A stamp that cannot be read counts as absent; one that is
outside the calendar does not. -/
def readStamp : Option Text → Except Fault (Option Moment)
  | none => .ok none
  | some text =>
    match Moment.ofStamp text with
    | .ok m => .ok (some m)
    | .error .unreadable => .ok none
    | .error .outOfRange => .error .dateOverflow

def ofEntries (entries : Entries) : Except Fault Manifest := do
  let markers ← readMarkers [] entries.pairs
  let publishedAt ← readStamp (entries.get? timestampKey)
  let lastIncremental ← Counter.ofText? (entries.get? lastIncrementalKey)
  return {
    entries
    indexId := entries.get? indexIdKey
    publishedAt
    chainId := entries.get? chainIdKey
    lastIncremental
    markers }

/-- The stated time of publication as it stands. -/
def rawTimestamp (m : Manifest) : Option Text := m.entries.get? timestampKey

/-- The manifest in what a stream yielded. -/
def ofPayload (payload : Entries.Payload) : Except Fault Manifest :=
  match Entries.ofPayload payload with
  | .error cause => .error (.corruptMetadata cause)
  | .ok entries => ofEntries entries

end Manifest

end IndexChain
