import IndexChain.Command.Request

/-!
# Command lines

What a list of words asks for. Options of the whole program come first; then a command's name, and
behind it the command's options and its place, in any order. Two dashes alone end the options. A
long option may have its value behind an equals sign, and short options may share one dash, the last
one with its value behind it. Of several values for one option the last one counts.
-/

namespace IndexChain

/-- What the program does. -/
inductive Command
  /-- Shows what would be fetched. -/
  | plan (request : Request) (format : Text)
  /-- Brings the copy up to date. -/
  | sync (request : Request)
deriving DecidableEq

namespace Command

/-! ## 1. Options -/

/-- An option by its names. -/
structure Switch where
  short : Option Char
  long : String
  takesValue : Bool

/-- The options and other words of a command line. -/
structure Words where
  /-- The options that were given, by their long names, the last one first. -/
  given : List (String × Text) := []
  /-- The other words, the last one first. -/
  others : List Text := []

def hasDash (t : Text) : Bool := t.beginsWith "-"

/-- A text begins with two dashes. -/
def hasDashes (t : Text) : Bool := t.beginsWith "--"

/-- A known option that is given by its long name. -/
def findLong (switches : List Switch) (name : Text) : Option Switch :=
  switches.find? fun s => Text.ofString s.long = name

/-- A known option that is given by its letter. -/
def findShort (switches : List Switch) (letter : CodePoint) : Option Switch :=
  switches.find? fun s => s.short.any fun c => CodePoint.ofChar c = letter

/-- What came of reading one option: nothing is missing, or the next word is its value. -/
inductive Reading
  | complete (given : List (String × Text))
  | needsValue (given : List (String × Text)) (switch : Switch) (name : Text)

/-- The letters behind one dash. -/
def readLetters (switches : List Switch) (given : List (String × Text)) :
    Text → Except Misuse Reading
  | [] => .ok (.complete given)
  | letter :: rest =>
    let name : Text := ['-', letter]
    match findShort switches letter with
    | none => .error (.unknownOption name)
    | some s =>
      if s.takesValue then
        if rest.isEmpty then .ok (.needsValue given s name)
        else .ok (.complete ((s.long, rest) :: given))
      else readLetters switches ((s.long, []) :: given) rest

/-- A word that begins with a dash. -/
def readOption (switches : List Switch) (given : List (String × Text)) (word : Text) :
    Except Misuse Reading :=
  let (name, value) :=
    match Text.cutAt '=' word with
    | some (name, value) => (name, some value)
    | none => (word, none)
  match findLong switches name, value with
  | some s, some value =>
    if s.takesValue then .ok (.complete ((s.long, value) :: given)) else .error (.badOption name)
  | some s, none =>
    if s.takesValue then .ok (.needsValue given s name) else .ok (.complete ((s.long, []) :: given))
  | none, _ =>
    if hasDashes word then .error (.unknownOption name)
    else readLetters switches given (word.drop 1)

/-- The options and other words of a command line. `mixed` says whether options may follow other
words; if not, the first other word ends the options. `waiting` is an option without its value. -/
def readWords (switches : List Switch) (mixed : Bool)
    (waiting : Option (Switch × Text)) (w : Words) :
    List Text → Except Misuse Words
  | [] =>
    match waiting with
    | some (_, name) => .error (.badOption name)
    | none => .ok w
  | word :: rest =>
    match waiting with
    | some (s, _) =>
      readWords switches mixed none { w with given := (s.long, word) :: w.given } rest
    | none =>
      if word = "--" then .ok { w with others := rest.reverse ++ w.others }
      else if hasDash word && 2 ≤ word.length then
        match readOption switches w.given word with
        | .error misuse => .error misuse
        | .ok (.complete given) => readWords switches mixed none { w with given } rest
        | .ok (.needsValue given s name) =>
          readWords switches mixed (some (s, name)) { w with given } rest
      else if mixed then
        readWords switches mixed none { w with others := word :: w.others } rest
      else .ok { w with others := rest.reverse ++ word :: w.others }

def Words.value? (w : Words) (long : String) : Option Text :=
  (w.given.find? fun (name, _) => name == long).map Prod.snd

/-! ## 2. Commands -/

def verboseSwitch : Switch := ⟨some 'v', "--verbose", false⟩
def jsonLogsSwitch : Switch := ⟨none, "--json-logs", false⟩
def copySwitch : Switch := ⟨some 'l', "--local", true⟩
def configSwitch : Switch := ⟨some 'c', "--config", true⟩
def formatSwitch : Switch := ⟨some 'o', "--output-format", true⟩

/-- The request of a command's words: at most one of them names the remote place. -/
def requestOf (w : Words) : Except Misuse Request :=
  match w.others.reverse with
  | [] => .ok ⟨none, w.value? copySwitch.long, w.value? configSwitch.long⟩
  | [remote] => .ok ⟨some remote, w.value? copySwitch.long, w.value? configSwitch.long⟩
  | _ :: extra => .error (.extraArguments extra)

/-- The names of the commands. -/
def names : List Text := ["plan", "sync"]

/-- The command of a name and the words behind it. -/
def ofWords (name : Text) (words : List Text) : Except Misuse Command := do
  if name = "plan" then
    let w ← readWords [copySwitch, configSwitch, formatSwitch] true none {} words
    return .plan (← requestOf w) ((w.value? formatSwitch.long).getD "text")
  else if name = "sync" then
    let w ← readWords [copySwitch, configSwitch] true none {} words
    return .sync (← requestOf w)
  else .error (.unknownCommand name)

/-- What is asked of the program. -/
structure Line where
  /-- Whether all is logged. -/
  verbose : Bool
  /-- Whether log records are written as JSON. -/
  jsonLogs : Bool
  command : Command
deriving DecidableEq

/-- The options of the whole program and the words behind them. -/
def readProgram (words : List Text) : Except Misuse Words :=
  readWords [verboseSwitch, jsonLogsSwitch] false none {} words

/-- What the words of a command line ask for. Words that begin with no command have to be options of
the whole program even behind two dashes, and then a command is still missing. -/
def Line.ofWords (words : List Text) : Except Misuse Line := do
  let w ← readProgram words
  match w.others.reverse with
  | [] => .error .missingCommand
  | name :: rest =>
    if !names.contains name then
      let _ ← readProgram (name :: rest)
    return ⟨(w.value? verboseSwitch.long).isSome, (w.value? jsonLogsSwitch.long).isSome,
      ← Command.ofWords name rest⟩

end Command

end IndexChain
