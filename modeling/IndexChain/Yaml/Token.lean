import IndexChain.Counter
import IndexChain.Yaml.Literal
import IndexChain.Yaml.Quoted
import IndexChain.Yaml.Tag

/-!
# Tokens of a YAML document

A document is cut into tokens from left to right. Two things are not in sight where a token begins.
Indentation stands for the brackets of lists and mappings: a stack of columns says where one opens
and closes. And that something is a key shows only at its colon: what may be a key is remembered,
one candidate for each level of brackets, and the token for the key is put in front of it later. A
candidate has to meet its colon on its own line and within 1024 code points.
-/

namespace IndexChain.Yaml

inductive Token
  /-- A directive with the version of the language, by its first number. -/
  | version (major : Nat)
  /-- A directive that declares a handle of tags. -/
  | handle (name start : Text)
  /-- A directive nothing is known about. -/
  | otherDirective
  | documentStart
  | documentEnd
  | blockList
  | blockMapping
  | blockEnd
  | listStart
  | listEnd
  | mappingStart
  | mappingEnd
  /-- The dash of an item. -/
  | item
  /-- The comma between items in brackets. -/
  | comma
  | key
  | value
  | alias (name : Text)
  | anchor (name : Text)
  | tag (tag : Tag)
  | scalar (isPlain : Bool) (text : Text)

/-- What may turn out to be a key. -/
structure Candidate where
  /-- The number of tokens in front of it. -/
  before : Nat
  /-- Whether nothing else can stand there. -/
  isRequired : Bool
  index : Nat
  line : Nat
  column : Nat

/-- A document that is partly cut into tokens. -/
structure Scan where
  /-- What is left of the text. -/
  rest : Text
  index : Nat := 0
  line : Nat := 0
  column : Nat := 0
  /-- The tokens so far, the last one first. -/
  tokens : List Token := []
  /-- The columns of the lists and mappings that are open by indentation, the innermost first. -/
  indents : List Nat := []
  /-- The number of open brackets. -/
  brackets : Nat := 0
  /-- Whether a key can begin here. -/
  allowsKey : Bool := true
  /-- What may be a key, by the number of brackets around it. -/
  candidates : List (Nat × Candidate) := []

namespace Scan

/-! ## 1. Moving on -/

/-- One code point further. -/
def step (s : Scan) : Scan :=
  match s.rest with
  | [] => s
  | c :: rest =>
    if isBreak c then
      { s with rest, index := s.index + 1, line := s.line + 1, column := 0 }
    else if c.val == 0xFEFF then { s with rest, index := s.index + 1 }
    else { s with rest, index := s.index + 1, column := s.column + 1 }

/-- Some code points further. -/
def skip : Nat → Scan → Scan
  | 0, s => s
  | n + 1, s => skip n s.step

/-- On to where a given text is left. -/
def upTo (s : Scan) (rest : Text) : Scan := s.skip (s.rest.length - rest.length)

/-- The scan with one more token. -/
def push (s : Scan) (t : Token) : Scan := { s with tokens := t :: s.tokens }

/-- On to the next token: over blanks, comments and line breaks. Outside of brackets a key can begin
on a new line. -/
def toToken (s : Scan) : Scan :=
  go s.rest.length (if s.index == 0 && s.rest.head?.any (·.val == 0xFEFF) then s.step else s)
where
  /-- At most some code points further. -/
  go : Nat → Scan → Scan
    | 0, s => s
    | n + 1, s =>
      match s.rest with
      | [] => s
      | c :: rest =>
        if c.val == 0x20 then go n s.step
        else if c.val == 0x23 then
          let s := s.skip (1 + (rest.takeWhile fun c => !isBreak c).length)
          match s.rest with
          | [] => s
          | _ :: _ => go n (newLine s)
        else if isBreak c then go n (newLine s)
        else s
  /-- Over a line break. -/
  newLine (s : Scan) : Scan :=
    let s := s.step
    if s.brackets = 0 then { s with allowsKey := true } else s

/-! ## 2. Keys to be -/

/-- Forgets the candidates that are too far back. -/
def dropStale (s : Scan) : Except Flaw Scan :=
  let isStale (k : Candidate) : Bool := k.line ≠ s.line || 1024 < s.index - k.index
  if s.candidates.any fun (_, k) => isStale k && k.isRequired then .error .malformed
  else .ok { s with candidates := s.candidates.filter fun (_, k) => !isStale k }

/-- Forgets the candidate of the level. -/
def dropCandidate (s : Scan) : Except Flaw Scan :=
  if s.candidates.any fun (level, k) => level == s.brackets && k.isRequired then .error .malformed
  else .ok { s with candidates := s.candidates.filter fun (level, _) => level != s.brackets }

/-- Remembers that a key may begin here. -/
def addCandidate (s : Scan) : Except Flaw Scan :=
  if s.allowsKey then do
    let s ← s.dropCandidate
    let isRequired := s.brackets == 0 && s.indents.head? == some s.column
    let k : Candidate := ⟨s.tokens.length, isRequired, s.index, s.line, s.column⟩
    return { s with candidates := (s.brackets, k) :: s.candidates }
  else .ok s

/-! ## 3. Indentation -/

/-- Closes the lists and mappings that are indented deeper than a column. -/
def closeBeyond (column : Nat) (s : Scan) : Scan :=
  if s.brackets = 0 then
    let closed := s.indents.takeWhile fun n => column < n
    { s with
      tokens := closed.map (fun _ => .blockEnd) ++ s.tokens
      indents := s.indents.drop closed.length }
  else s

/-- Closes all lists and mappings that are open by indentation. -/
def closeAll (s : Scan) : Scan :=
  if s.brackets = 0 then
    { s with tokens := s.indents.map (fun _ => .blockEnd) ++ s.tokens, indents := [] }
  else s

/-- Whether a column is deeper than all that is open. -/
def isDeeper (s : Scan) (column : Nat) : Bool := s.indents.head?.all fun n => n < column

/-- Opens a list or mapping at a column, if the column is deeper than the last one. -/
def openAt (column : Nat) (t : Token) (s : Scan) : Scan :=
  if s.isDeeper column then { s.push t with indents := column :: s.indents } else s

/-! ## 4. Tokens -/

/-- Opens and closes what a mark outside of brackets asks for; keys must be able to begin there. -/
def beginEntry (t : Token) (s : Scan) : Except Flaw Scan :=
  if s.brackets = 0 then
    if s.allowsKey then .ok (s.openAt s.column t) else .error .malformed
  else .ok s

/-- The mark of an item. -/
def fetchItem (s : Scan) : Except Flaw Scan := do
  let s ← s.beginEntry .blockList
  let s ← { s with allowsKey := true }.dropCandidate
  return s.step.push .item

/-- The mark of a key. -/
def fetchKey (s : Scan) : Except Flaw Scan := do
  let s ← s.beginEntry .blockMapping
  let s ← { s with allowsKey := s.brackets == 0 }.dropCandidate
  return s.step.push .key

/-- The mark of a value. If a candidate is there it is the key, and a mapping opens in front of it
if it stands deeper than what is open. -/
def fetchValue (s : Scan) : Except Flaw Scan :=
  match s.candidates.find? fun (level, _) => level == s.brackets with
  | some (_, k) =>
    let newer := s.tokens.take (s.tokens.length - k.before)
    let older := s.tokens.drop (s.tokens.length - k.before)
    let opens := s.brackets == 0 && s.isDeeper k.column
    let s : Scan := { s with
      tokens := newer ++ .key :: (if opens then .blockMapping :: older else older)
      indents := if opens then k.column :: s.indents else s.indents
      candidates := s.candidates.filter fun (level, _) => level != s.brackets
      allowsKey := false }
    .ok (s.step.push .value)
  | none => do
    let s ← s.beginEntry .blockMapping
    let s ← { s with allowsKey := s.brackets == 0 }.dropCandidate
    return s.step.push .value

/-- An opening bracket. -/
def fetchOpening (t : Token) (s : Scan) : Except Flaw Scan := do
  let s ← s.addCandidate
  return { s with brackets := s.brackets + 1, allowsKey := true }.step.push t

/-- A closing bracket. -/
def fetchClosing (t : Token) (s : Scan) : Except Flaw Scan := do
  let s ← s.dropCandidate
  if s.brackets = 0 then .error .malformed
  else return { s with brackets := s.brackets - 1, allowsKey := false }.step.push t

def fetchComma (s : Scan) : Except Flaw Scan := do
  let s ← { s with allowsKey := true }.dropCandidate
  return s.step.push .comma

/-- The marks around documents. -/
def fetchDocumentMark (t : Token) (s : Scan) : Except Flaw Scan := do
  let s ← s.closeAll.dropCandidate
  return ({ s with allowsKey := false }.skip 3).push t

/-- The number of a version at the beginning of a text, and what follows. -/
def takeNumber (t : Text) : Except Flaw (Nat × Text) :=
  let digits := (t.takeWhile fun c => c.asciiDigit?.isSome).filterMap CodePoint.asciiDigit?
  if digits.isEmpty then .error .malformed
  else if Counter.digitLimit < digits.length then .error .badValue
  else .ok (Text.digitsValue digits, t.drop digits.length)

/-- A text without the blanks at its beginning. -/
def dropSpaces (t : Text) : Text := t.dropWhile fun c => c.val == 0x20

/-- The directive behind its mark, and what follows its line. -/
def readDirective (t : Text) : Except Flaw (Token × Text) := do
  let (name, rest) ← takeName t
  if !endsName rest then .error .malformed
  else if name = "YAML" then
    let (major, rest) ← takeNumber (dropSpaces rest)
    match rest with
    | [] => .error .malformed
    | dot :: rest =>
      let (_, rest) ← takeNumber rest
      if dot ≠ '.' || !endsName rest then .error .malformed
      else return (.version major, ← Literal.afterLine rest)
  else if name = "TAG" then
    let (name, rest) ← Tag.handleOf (dropSpaces rest)
    if !rest.head?.any (·.val == 0x20) then .error .malformed
    else
      let (start, rest) ← Tag.someSuffix (dropSpaces rest)
      if !endsName rest then .error .malformed
      else return (.handle name start, ← Literal.afterLine rest)
  else
    return (.otherDirective, ← Literal.afterLine (rest.dropWhile fun c => !isBreak c))

def fetchDirective (s : Scan) : Except Flaw Scan := do
  let s ← s.closeAll.dropCandidate
  let (t, rest) ← readDirective (s.rest.drop 1)
  return ({ s with allowsKey := false }.upTo rest).push t

/-- The name behind the mark of an alias or an anchor, and what follows. -/
def readName (t : Text) : Except Flaw (Text × Text) := do
  let (name, rest) ← takeName t
  if endsWord rest || rest.head?.any (Unquoted.isOneOf "?:,]\x7d%@`") then return (name, rest)
  else .error .malformed

/-- Something that may be or begin a key, read from the code point behind its mark on. -/
def fetchNode {α : Type} (read : Text → Except Flaw (α × Text)) (token : α → Token) (s : Scan) :
    Except Flaw Scan := do
  let s ← s.addCandidate
  let (a, rest) ← read (s.rest.drop 1)
  return ({ s with allowsKey := false }.upTo rest).push (token a)

/-- A scalar in indented lines. -/
def fetchLiteral (folded : Bool) (s : Scan) : Except Flaw Scan := do
  let s ← { s with allowsKey := true }.dropCandidate
  let outer := s.indents.head?.elim 0 (· + 1)
  let (text, rest) ← Literal.read folded outer (s.rest.drop 1)
  return (s.upTo rest).push (.scalar false text)

/-- A scalar without quotes. A key can follow it on a new line. -/
def fetchUnquoted (s : Scan) : Except Flaw Scan := do
  let s ← s.addCandidate
  let outer := s.indents.head?.elim 0 (· + 1)
  let result := Unquoted.read (s.brackets != 0) outer [] {} 0 s.rest
  let s := ({ s with allowsKey := result.endedLine }.upTo result.rest)
  return s.push (.scalar true result.text)

/-- The next token and those it brings with it; nothing at the end of the text. -/
def fetch (s : Scan) : Except Flaw (Option Scan) := do
  let s ← s.toToken.dropStale
  let s := s.closeBeyond s.column
  match s.rest with
  | [] => return none
  | c :: rest =>
    let inBrackets := s.brackets != 0
    let isMark (m : Char) : Bool := CodePoint.ofChar m = c
    if isMark '%' && s.column == 0 then some <$> s.fetchDirective
    else if s.column == 0 && startsDocument s.rest then some <$> s.fetchDocumentMark .documentStart
    else if s.column == 0 && endsDocument s.rest then some <$> s.fetchDocumentMark .documentEnd
    else if isMark '[' then some <$> s.fetchOpening .listStart
    else if isMark '\x7b' then some <$> s.fetchOpening .mappingStart
    else if isMark ']' then some <$> s.fetchClosing .listEnd
    else if isMark '\x7d' then some <$> s.fetchClosing .mappingEnd
    else if isMark ',' then some <$> s.fetchComma
    else if isMark '-' && endsWord rest then some <$> s.fetchItem
    else if isMark '?' && (inBrackets || endsWord rest) then some <$> s.fetchKey
    else if isMark ':' && (inBrackets || endsWord rest) then some <$> s.fetchValue
    else if isMark '*' then some <$> s.fetchNode readName .alias
    else if isMark '&' then some <$> s.fetchNode readName .anchor
    else if isMark '!' then some <$> s.fetchNode Tag.read .tag
    else if isMark '|' && !inBrackets then some <$> s.fetchLiteral false
    else if isMark '>' && !inBrackets then some <$> s.fetchLiteral true
    else if isMark '\'' then some <$> s.fetchNode (Quoted.read false) (.scalar false)
    else if isMark '"' then some <$> s.fetchNode (Quoted.read true) (.scalar false)
    else if Unquoted.canBegin inBrackets c rest then some <$> s.fetchUnquoted
    else .error .malformed

/-- The tokens that can be given out for certain: those in front of the first candidate for a key,
in front of which tokens may still be put. -/
def ready (s : Scan) : List Token :=
  let count := s.candidates.foldl (fun count (_, k) => min count k.before) s.tokens.length
  s.tokens.reverse.take count

/-- All tokens of what is left, if there are at most as many steps to it as `fuel` says. If
something is wrong with the text, it is said behind the tokens that were ready before it was met. -/
def run : Nat → Scan → List Token × Option Flaw
  | 0, s => (s.ready, some .malformed)
  | fuel + 1, s =>
    let next : Except Flaw (Option Scan) := do
      match ← s.fetch with
      | some s => some <$> s.dropStale
      | none => return none
    match next with
    | .error flaw => (s.ready, some flaw)
    | .ok (some s) => run fuel s
    | .ok none =>
      match s.toToken.closeAll.dropCandidate with
      | .error flaw => (s.ready, some flaw)
      | .ok s => (s.tokens.reverse, none)

end Scan

/-- The tokens of a text, and what is wrong with the text behind them. Every step of a scan takes a
code point at least. -/
def Token.ofText (t : Text) : List Token × Option Flaw := Scan.run (t.length + 1) { rest := t }

end IndexChain.Yaml
