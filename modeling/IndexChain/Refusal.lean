import IndexChain.Settings
import IndexChain.Yaml.Break

/-!
# Refusals

Why a command is not carried out: it was not asked for properly, its settings are wrong, or
something failed for which the command has no words of its own.
-/

namespace IndexChain

/-- What is wrong with how a command was asked for. -/
inductive Misuse
  /-- Neither a remote place nor settings are named. -/
  | missingRemote
  /-- There is no place for a copy. -/
  | missingCopy
  /-- A report is asked for in a format that is not known. -/
  | unknownFormat (name : Text)
  | unknownOption (name : Text)
  /-- An option lacks its value or has one it does not take. -/
  | badOption (name : Text)
  | missingCommand
  | unknownCommand (name : Text)
  /-- There is more than a command takes. -/
  | extraArguments (arguments : List Text)
deriving DecidableEq

/-- What is wrong, in words. -/
def Misuse.message : Misuse → Text
  | missingRemote => "Either a remote location or --config is required"
  | missingCopy => "A local location is required to sync"
  | unknownFormat name => "Unknown output format: " ++ name
  | unknownOption name => "No such option: " ++ name
  | badOption name => "Option " ++ name.quote ++ " is not used properly."
  | missingCommand => "Missing command."
  | unknownCommand name => "No such command " ++ name.quote ++ "."
  | extraArguments arguments =>
    "Got unexpected extra arguments (" ++ Text.join " " arguments ++ ")"

/-- Why a command is not carried out. -/
inductive Refusal
  | misuse (misuse : Misuse)
  /-- The settings are not what they have to be. -/
  | badSettings (violations : List Settings.Violation)
  /-- The file of the settings is not text. -/
  | notText
  /-- The file of the settings has no value. -/
  | badDocument (flaw : Yaml.Flaw)
  | fault (fault : Fault)

namespace Settings.Violation

/-- What is wrong, in words. -/
def message (v : Violation) : Text :=
  let words : String :=
    match v.problem with
    | .notMapping => "has to be a mapping"
    | .unknownKey => "is not known"
    | .badKey => "is no key"
    | .missing => "is missing"
    | .notSettings => "The settings have to be a mapping"
    | .notText => "has to be a text"
    | .notUnicode => "has to be a text of Unicode"
  Text.join " " [Text.join "." v.place, words]

end Settings.Violation

/-- Why a command is not carried out, in words. -/
def Refusal.message : Refusal → Text
  | .misuse m => m.message
  | .badSettings violations => Text.join "; " (violations.map Settings.Violation.message)
  | .notText => "The settings are not written in UTF-8"
  | .badDocument _ => "The settings are not a YAML document"
  | .fault f => f.message

end IndexChain
