import IndexChain.Yaml.Written

/-!
# Reports

A report is a list of fields with values, shown in one of three formats.
-/

namespace IndexChain

/-- A report: names with values, in order. -/
abbrev Report := List (Text × Value)

namespace Report

/-- The formats of a report. -/
inductive Format
  | text
  | json
  | yaml
deriving DecidableEq

namespace Format

def all : List Format := [text, json, yaml]

/-- The name by which a format is asked for. -/
def name : Format → String
  | text => "text"
  | json => "json"
  | yaml => "yaml"

def ofName? (t : Text) : Option Format := all.find? fun f => Text.ofString f.name = t

end Format

/-- A value inside a line of text: a text as it is, another one as it is shown in messages. -/
def plainItem : Value → Text
  | .text t => t
  | v => v.shown

/-- A value in a line of text; a list that shows nothing says so. -/
def plainValue : Value → Text
  | .list items =>
    let line := Text.join ", " (items.map plainItem)
    if line.isEmpty then "(none)" else line
  | v => plainItem v

def shownAs (report : Report) : Format → Text
  | .text => Text.join "\n" (report.map fun (name, v) => name ++ ": " ++ plainValue v)
  | .json => (Value.record report).json
  | .yaml => Yaml.write report

end Report

end IndexChain
