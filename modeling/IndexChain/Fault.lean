import IndexChain.Text.Quoted

/-!
# Faults

Everything that can go wrong while a local copy is brought up to date, by cause. The wording of a
fault is a function of its cause and stands here once.

Three readings of a fault matter to the clean-up code of a session: whether it is an input or output
failure (`isIo`), whether it is ordinary or an interruption from outside (`isOrdinary`), and whether
it belongs to this library (`phase?`).
-/

namespace IndexChain

/-- What an input or output operation failed of. -/
inductive IoKind
  | general
  | permission
  | notFound
  | timeout
  | connection
  | isDirectory
  | notDirectory
  | alreadyExists
deriving DecidableEq

/-- The phase of a session to which a fault belongs. -/
inductive Phase
  /-- There is no session, and nothing was fetched. -/
  | construction
  /-- Chunk by chunk reading was given up. -/
  | iteration
  /-- The local copy's record was not brought up to date. -/
  | finalization
  /-- Something closed was used. -/
  | usage
deriving DecidableEq

/-- Why metadata was refused. -/
inductive Corruption
  /-- An escape of a code point lacks one of its four digits. -/
  | malformedEscape (text : Text)
  /-- Half of a surrogate pair stands alone. -/
  | unpairedSurrogate (text : Text)
  /-- A stream yielded something other than bytes. -/
  | notBytes (found : Text)
  /-- The publication time is absent or cannot be read. -/
  | badTimestamp (raw : Option Text)
  /-- A cause given in words. -/
  | stated (message : Text)
deriving DecidableEq

/-- What went wrong. -/
inductive Fault
  /-- An input or output operation failed. -/
  | io (kind : IoKind) (message : Text)
  /-- Metadata was refused. -/
  | corruptMetadata (cause : Corruption)
  /-- The copy's index and the published one are not known to be the same. -/
  | identityMismatch (copy published : Option Text)
  /-- Switching to a chunk failed of an input or output operation. -/
  | chunkUnavailable (name : Text) (cause : Option Fault)
  /-- A session or a handler was used after its end. -/
  | closed (message : Text)
  /-- Some other failure of a synchronisation. -/
  | sync (message : Text)
  /-- A value is out of its domain. -/
  | invalidValue (message : Option Text)
  /-- Something looked up is not there. -/
  | missingKey (message : Text)
  /-- A failure without a class of its own. -/
  | internal (message : Option Text)
  /-- A date is outside the years 1 to 9999. -/
  | dateOverflow
  /-- A text has no bytes in the encoding in which it is to be written. -/
  | unencodable
  /-- Something cannot be given in this place, or not in this form. -/
  | badArgument
  /-- The run was interrupted from outside. -/
  | interrupted
  /-- There is nothing more to hand out. -/
  | exhausted
deriving Inhabited

namespace Corruption

/-- The cause in words. -/
def message : Corruption → Text
  | malformedEscape text => "Malformed \\uxxxx encoding in " ++ text.quote
  | unpairedSurrogate text => "Invalid surrogate sequence in " ++ text.quote
  | notBytes found => "Expected bytes from metadata stream, got " ++ found
  | badTimestamp raw =>
    "Index properties corrupted: invalid nexus.index.timestamp " ++ Text.quote? raw
  | stated message => message

end Corruption

namespace Fault

/-- The phase of a fault of this library; nothing for a fault from elsewhere. -/
def phase? : Fault → Option Phase
  | corruptMetadata _ | identityMismatch .. | sync _ => some .construction
  | chunkUnavailable .. => some .iteration
  | closed _ => some .usage
  | _ => none

/-- A failed input or output operation. -/
def isIo : Fault → Bool
  | io .. => true
  | _ => false

/-- A missing resource. -/
def isNotFound : Fault → Bool
  | io .notFound _ => true
  | _ => false

/-- A fault that clean-up code answers; an interruption passes it by. -/
def isOrdinary : Fault → Bool
  | interrupted => false
  | _ => true

/-- An id in a message; an absent one shows as such. -/
def shownId (id : Option Text) : Text := id.getD "None"

/-- The fault in words, where it has any. -/
def message : Fault → Text
  | io _ message => message
  | corruptMetadata cause => cause.message
  | identityMismatch copy published =>
    "Local and remote index IDs do not match or are missing: " ++ shownId copy ++ ", " ++
      shownId published
  | chunkUnavailable name _ => "IO problem while switching to chunk " ++ name.quote
  | closed message | sync message | missingKey message => message
  | invalidValue message | internal message => message.getD []
  | dateOverflow | unencodable | badArgument | interrupted | exhausted => []

end Fault

end IndexChain
