import IndexChain.Session

/-!
# Usage

What callers do with deliveries and sessions, as data: a caller's steps, and what each step answers.
Callers keep the chunks they were handed and may use any of them at any later time, so the state of
a caller holds them all.

The steps are defined for depots of every kind. That a statement holds for all callers is said by
running lists of steps.
-/

namespace IndexChain.Usage

variable {σ : Type} (D : Depots σ)

/-- What a caller does with a chunk. -/
inductive ChunkStep
  | read (size : Option Nat)
  | close
  | isClosed
  /-- Reads it to its end, or fails, in a body of work after which it is closed. -/
  | during (fails : Bool)
deriving DecidableEq

/-- What a step answers if it does not fail. -/
inductive Answer
  | nothing
  | flag (b : Bool)
  | name (t : Text)
  | content (bytes : Bytes)
  | contents (chunks : List (Text × Bytes))
  /-- A chunk that was read in a body of work. -/
  | used (name : Text) (content : Bytes)
  /-- A pass over the chunks. -/
  | pass (d : Delivery)
  /-- A chunk handed out, and the pass after that. -/
  | handed (name : Text) (d : Delivery)
  /-- The session that there is. -/
  | session (s : Session)
  /-- What both places say, the copy first. -/
  | manifests (copy : Option Manifest) (published : Manifest)
  /-- There is nothing at that place of a list. -/
  | noSuchItem
  /-- There is no session. -/
  | noSession

/-- The fault with which a caller's body of work fails. -/
def bodyFault : Fault := .internal (some "body failed")

/-- The item at a place of a list; places below zero count from the end. -/
def itemAt? {α : Type} (items : List α) (i : Int) : Option α :=
  if 0 ≤ i then items[i.toNat]?
  else if -i ≤ items.length then items[(items.length + i).toNat]? else none

def onChunk (chunk : Chunk) : ChunkStep → Run σ Answer
  | .read size => do return .content (← chunk.read D size)
  | .close => do
    chunk.close D
    return .nothing
  | .isClosed => fun w => (.ok (.flag (D.isShut chunk.stream w)), w)
  | .during true => chunk.during D (Run.fail bodyFault)
  | .during false => chunk.during D do return .used chunk.name (← chunk.read D none)

/-! ## 1. Callers of a delivery -/

/-- What a caller does with a delivery. -/
inductive DeliveryStep
  | next
  | hasNext
  | close
  /-- Reads every chunk that is still to come. -/
  | drain
  | chunk (i : Int) (step : ChunkStep)
deriving DecidableEq

structure DeliveryCaller where
  delivery : Delivery
  /-- The chunks handed out, in order. -/
  chunks : List Chunk := []

namespace DeliveryCaller

def onDelivery {α : Type} (step : Run (Delivery × σ) α) : Run (DeliveryCaller × σ) α :=
  fun (c, w) =>
    let (outcome, d, w) := step (c.delivery, w)
    (outcome, { c with delivery := d }, w)

/-- A step on the depots alone. -/
def onDepots {α : Type} (step : Run σ α) : Run (DeliveryCaller × σ) α := fun (c, w) =>
  let (outcome, w) := step w
  (outcome, c, w)

/-- Asks for the next chunk and keeps it. -/
def takeNext : Run (DeliveryCaller × σ) Chunk := do
  let chunk ← onDelivery (Delivery.next D)
  Run.change fun (c, w) => ({ c with chunks := c.chunks ++ [chunk] }, w)
  return chunk

/-- Does a step. -/
def step : DeliveryStep → Run (DeliveryCaller × σ) Answer
  | .next => do return .name (← takeNext D).name
  | .hasNext => fun (c, w) => (.ok (.flag c.delivery.hasNext), c, w)
  | .close => do
    onDelivery (Delivery.close D)
    return .nothing
  | .drain => fun (c, w) =>
    let reading (_ : Nat) (chunk : Chunk) : Run (DeliveryCaller × σ) (Text × Bytes) := do
      return (chunk.name, ← onDepots (chunk.read D none))
    (do
      return Answer.contents
        (← Run.forEach (takeNext D) reading (c.delivery.pending.length + 1) 0 []))
      (c, w)
  | .chunk i step => fun (c, w) =>
    match itemAt? c.chunks i with
    | none => (.ok .noSuchItem, c, w)
    | some chunk => onDepots (onChunk D chunk step) (c, w)

end DeliveryCaller

/-! ## 2. Callers of sessions -/

/-- What a caller does with a session. -/
inductive SessionStep
  /-- Opens a session, forgetting an earlier one with its passes and chunks. -/
  | establish
  | info
  | manifests
  | iterate
  | next (pass : Int)
  | pass (i : Int)
  /-- Reads every chunk in a new pass. -/
  | drain
  /-- Reads the chunks in a new pass within a body of work. The body may fail with a fault: before
  it reads the chunk with a number, or for a number below zero after it read them all. -/
  | during (failure : Option (Int × Fault))
  | finish
  | close
  | chunk (i : Int) (step : ChunkStep)

structure SessionCaller where
  session : Option Session := none
  /-- The passes the caller made, by their places in the session. -/
  passes : List Nat := []
  /-- The chunks handed out, in order. -/
  chunks : List Chunk := []

/-- What is given to a caller of sessions: whether there are places to work between, the comment to
record and the time. -/
structure Setting where
  hasRemote : Bool
  hasCopy : Bool
  comment : Option Text
  now : Moment

namespace SessionCaller

def onSession (step : Run (Session × σ) Answer) : Run (SessionCaller × σ) Answer := fun (c, w) =>
  match c.session with
  | none => (.ok .noSession, c, w)
  | some s =>
    let (outcome, s, w) := step (s, w)
    (outcome, { c with session := some s }, w)

def keep (chunk : Chunk) (c : SessionCaller) : SessionCaller :=
  { c with chunks := c.chunks ++ [chunk] }

/-- The pass that the caller knows by a number. -/
def passAt? (c : SessionCaller) (i : Int) : Option (Nat × Delivery) := do
  let place ← itemAt? c.passes i
  return (place, ← (← c.session).passes[place]?)

def readWhole (chunk : Chunk) : Run (Session × σ) (Text × Bytes) := do
  return (chunk.name, ← Session.onDepots (chunk.read D none))

/-- Opens a session. -/
def establish (setting : Setting) : Run (SessionCaller × σ) Answer := fun (_, w) =>
  if !setting.hasRemote then (.error Session.missingRemote, {}, w)
  else
    match Session.establish D setting.hasCopy setting.comment w with
    | (.ok s, w) => (.ok (.session s), { session := some s }, w)
    | (.error fault, w) => (.error fault, {}, w)

/-- The step of reading every chunk in a new pass; the chunks are kept as they come. -/
def drain : Run (SessionCaller × σ) Answer := fun (c, w) =>
  match c.session with
  | none => (.ok .noSession, c, w)
  | some s =>
    match Session.iterate D (s, w) with
    | (.error fault, s, w) => (.error fault, { c with session := some s }, w)
    | (.ok i, s, w) =>
      let taking : Run ((SessionCaller × Session) × σ) Chunk := fun ((c, s), w) =>
        match Session.next D i (s, w) with
        | (.ok chunk, s, w) => (.ok chunk, (keep chunk c, s), w)
        | (.error fault, s, w) => (.error fault, (c, s), w)
      let reading (_ : Nat) (chunk : Chunk) : Run ((SessionCaller × Session) × σ) (Text × Bytes) :=
        fun ((c, s), w) =>
          let (outcome, s, w) := readWhole D chunk (s, w)
          (outcome, (c, s), w)
      let (outcome, (c, s), w) :=
        Run.forEach taking reading (s.plan.chunkNames.length + 1) 0 [] ((c, s), w)
      (outcome.map .contents, { c with session := some s }, w)

/-- The body of work that reads the chunks in a new pass and may be told to fail. -/
def body (failure : Option (Int × Fault)) : Run (Session × σ) (List (Text × Bytes)) := do
  let reading (k : Nat) (chunk : Chunk) : Run (Session × σ) (Text × Bytes) :=
    match failure with
    | some (at_, fault) => if at_ = k then Run.fail fault else readWhole D chunk
    | none => readWhole D chunk
  let contents ← Session.consumeAll D reading
  match failure with
  | some (at_, fault) => if at_ = -1 then Run.fail fault else pure contents
  | none => pure contents

/-- Does a step. -/
def step (setting : Setting) : SessionStep → Run (SessionCaller × σ) Answer
  | .establish => establish D setting
  | .info => onSession fun (s, w) => (.ok (.session s), s, w)
  | .manifests => onSession fun (s, w) => (.ok (.manifests s.copy s.published), s, w)
  | .iterate => fun (c, w) =>
    match c.session with
    | none => (.ok .noSession, c, w)
    | some s =>
      match Session.iterate D (s, w) with
      | (.error fault, s, w) => (.error fault, { c with session := some s }, w)
      | (.ok i, s, w) =>
        (.ok (.pass (s.passes[i]?.getD default)),
          { c with session := some s, passes := c.passes ++ [i] }, w)
  | .next i => fun (c, w) =>
    match c.session, c.passAt? i with
    | none, _ => (.ok .noSession, c, w)
    | some _, none => (.ok .noSuchItem, c, w)
    | some s, some (place, _) =>
      match Session.next D place (s, w) with
      | (.error fault, s, w) => (.error fault, { c with session := some s }, w)
      | (.ok chunk, s, w) =>
        (.ok (.handed chunk.name (s.passes[place]?.getD default)),
          keep chunk { c with session := some s }, w)
  | .pass i => fun (c, w) =>
    match c.session, c.passAt? i with
    | none, _ => (.ok .noSession, c, w)
    | some _, none => (.ok .noSuchItem, c, w)
    | some _, some (_, d) => (.ok (.pass d), c, w)
  | .drain => drain D
  | .during failure => onSession do
    return .contents (← Session.during D setting.now (body D failure))
  | .finish => onSession do
    Session.finish D setting.now
    return .nothing
  | .close => onSession do
    Session.close D
    return .nothing
  | .chunk i step => fun (c, w) =>
    match c.session, itemAt? c.chunks i with
    | none, _ => (.ok .noSession, c, w)
    | some _, none => (.ok .noSuchItem, c, w)
    | some _, some chunk =>
      let (outcome, w) := onChunk D chunk step w
      (outcome, c, w)

end SessionCaller

end IndexChain.Usage
