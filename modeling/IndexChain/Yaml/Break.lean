import IndexChain.Text

/-!
# Lines of a YAML document

Which code points a document may hold, which of them are blanks and line breaks, and what remains of
the breaks between two words: one break reads as a blank, and of several the first is left out.
-/

namespace IndexChain.Yaml

/-- Why a document has no value. -/
inductive Flaw
  /-- It is not a document of the language, or has a tag that nothing is known about. -/
  | malformed
  /-- A number, a date or an escaped code point is out of its range. -/
  | badValue
  /-- An escaped code point or a part of a number is too large to be looked at. -/
  | tooLarge
  /-- A truth value is neither true nor false. -/
  | badBool
  /-- A number has no digits at all. -/
  | emptyNumber
  /-- A date does not look like one. -/
  | noDate
  /-- A date is not a scalar. -/
  | notScalar
  /-- Something is nested too deeply. -/
  | tooDeep
deriving DecidableEq

/-- The code points a document may hold. -/
def isAllowed (c : CodePoint) : Bool :=
  c.val == 0x09 || c.val == 0x0A || c.val == 0x0D || (0x20 ≤ c.val && c.val ≤ 0x7E) ||
    c.val == 0x85 || (0xA0 ≤ c.val && c.val ≤ 0xD7FF) || (0xE000 ≤ c.val && c.val ≤ 0xFFFD) ||
    0x10000 ≤ c.val

/-- What a line break reads as; nothing for other code points. -/
def break? (c : CodePoint) : Option CodePoint :=
  if c.val == 0x0A || c.val == 0x0D || c.val == 0x85 then some '\n'
  else if c.val == 0x2028 || c.val == 0x2029 then some c
  else none

/-- A line break. -/
def isBreak (c : CodePoint) : Bool := (break? c).isSome

/-- A blank or a line break, after which a mark has a meaning of its own. -/
def isBlankOrBreak (c : CodePoint) : Bool := c.val == 0x20 || c.val == 0x09 || isBreak c

/-- Whether a text ends here or goes on with a blank. -/
def endsWord : Text → Bool
  | [] => true
  | c :: _ => isBlankOrBreak c

/-- Whether a text ends here or goes on with a space or a line break. -/
def endsName : Text → Bool
  | [] => true
  | c :: _ => c.val == 0x20 || isBreak c

/-- Whether a line begins with the mark that starts a document. -/
def startsDocument (line : Text) : Bool :=
  match Text.afterStart? "---" line with
  | some rest => endsWord rest
  | none => false

/-- Whether a line begins with the mark that ends a document. -/
def endsDocument (line : Text) : Bool :=
  match Text.afterStart? "..." line with
  | some rest => endsWord rest
  | none => false

/-- What stands between two words. -/
structure Gap where
  /-- The blanks in front of the first line break, the last one first. -/
  blanks : Text := []
  /-- The line breaks, the last one first. -/
  breaks : Text := []

namespace Gap

/-- Nothing between two words. -/
def isNothing (g : Gap) : Bool := g.blanks.isEmpty && g.breaks.isEmpty

/-- The gap with one more blank; blanks of further lines do not count. -/
def blank (g : Gap) (c : CodePoint) : Gap := if g.breaks.isEmpty then ⟨c :: g.blanks, []⟩ else g

/-- The gap with one more line break. -/
def lineBreak (g : Gap) (c : CodePoint) : Gap := { g with breaks := c :: g.breaks }

/-- What a gap reads as. -/
def text (g : Gap) : Text :=
  match g.breaks.reverse with
  | [] => g.blanks.reverse
  | first :: rest =>
    if first.val ≠ 0x0A then first :: rest
    else if rest.isEmpty then [(' ' : CodePoint)]
    else rest

end Gap

end IndexChain.Yaml
