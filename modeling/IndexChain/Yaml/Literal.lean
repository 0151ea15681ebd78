import IndexChain.Yaml.Break

/-!
# Scalars in indented lines

A scalar may be the lines below a header, indented deeper than what is around them. The lines keep
their breaks or are folded; the breaks at the end are kept, cut to one, or dropped.
-/

namespace IndexChain.Yaml.Literal

/-- What is done with the line breaks at the end. -/
inductive Ending
  | keep
  | one
  | drop
deriving DecidableEq

/-- What a header says. -/
structure Header where
  ending : Ending := .one
  /-- How much deeper than their surroundings the lines are indented, if it is said. -/
  depth : Option Nat := none

/-- The ending that a mark asks for. -/
def ending? (c : CodePoint) : Option Ending :=
  if c = '+' then some .keep else if c = '-' then some .drop else none

/-- The depth that a digit says; none is not a depth. -/
def depth? (c : CodePoint) : Option (Except Flaw Nat) :=
  c.asciiDigit?.map fun n => if n = 0 then .error .malformed else .ok n

/-- The marks of a header, in either order. -/
def headerMarks : Text → Except Flaw (Header × Text)
  | [] => .ok ({}, [])
  | c :: rest =>
    match ending? c, depth? c with
    | some ending, _ =>
      match rest with
      | [] => .ok (⟨ending, none⟩, [])
      | d :: rest' =>
        match depth? d with
        | some depth => do return (⟨ending, some (← depth)⟩, rest')
        | none => .ok (⟨ending, none⟩, rest)
    | none, some depth => do
      let depth ← depth
      match rest with
      | [] => return (⟨.one, some depth⟩, [])
      | d :: rest' =>
        match ending? d with
        | some ending => return (⟨ending, some depth⟩, rest')
        | none => return (⟨.one, some depth⟩, rest)
    | none, none => .ok ({}, c :: rest)

/-- What follows the end of a line on which only a comment may stand. -/
def afterLine (t : Text) : Except Flaw Text :=
  let t := t.dropWhile fun c => c.val == 0x20
  let t := if t.head?.any (·.val == 0x23) then t.dropWhile fun c => !isBreak c else t
  match t with
  | [] => .ok []
  | c :: rest => if isBreak c then .ok rest else .error .malformed

/-- A line with its break; only the last line of a text has none. -/
structure Line where
  body : Text
  lineBreak : Option CodePoint

def lines : Text → List Line
  | [] => []
  | c :: rest =>
    if isBreak c then ⟨[], some c⟩ :: lines rest
    else
      match lines rest with
      | [] => [⟨[c], none⟩]
      | line :: more => { line with body := c :: line.body } :: more

/-- The text of some lines. -/
def unlines (ls : List Line) : Text := ls.flatMap fun l => l.body ++ l.lineBreak.toList

/-- The blanks at the beginning of a line. -/
def depthOf (l : Line) : Nat := (l.body.takeWhile fun c => c.val == 0x20).length

/-- Whether a line is nothing but blanks. -/
def isEmptyLine (l : Line) : Bool := depthOf l == l.body.length

/-- The deepest indentation of the empty lines at the beginning and of the first other line. -/
def leadingDepth (deepest : Nat) : List Line → Nat
  | [] => deepest
  | l :: rest =>
    let deepest := max deepest (depthOf l)
    if isEmptyLine l && l.lineBreak.isSome then leadingDepth deepest rest else deepest

/-- A line's place in a scalar whose lines are indented by `indent` columns. -/
inductive LineKind
  /-- A line break of the scalar. -/
  | empty (b : CodePoint)
  /-- A line of the scalar, with its break as it reads, or without. -/
  | content (body : Text) (b : Option CodePoint)
  /-- The first line behind the scalar. -/
  | beyond

/-- The place of a line. -/
def kindOf (indent : Nat) (l : Line) : LineKind :=
  let lead := min indent (depthOf l)
  match l.body.drop lead, l.lineBreak with
  | [], some b => .empty ((break? b).getD b)
  | [], none => .beyond
  | body, b => if lead = indent then .content body (b.map fun b => (break? b).getD b) else .beyond

/-- Whether a line begins with a word. -/
def beginsWithWord (body : Text) : Bool := !body.head?.any fun c => c.val == 0x20 || c.val == 0x09

/-- The text between two lines of a folded scalar; `breaks` are those of the empty lines between. -/
def foldBreaks (folded : Bool) (before after : Text) (b : Option CodePoint) (breaks : Text) :
    Text :=
  let own := b.toList
  let single : Text := ['\n']
  if folded && own = single && beginsWithWord before && beginsWithWord after then
    if breaks.isEmpty then [(' ' : CodePoint)] else breaks
  else own ++ breaks

/-- The text of a scalar's lines and the lines behind it. `last` is the line before with its break,
and `breaks` are the breaks of the empty lines behind that, in order. -/
def readLines (folded : Bool) (ending : Ending) (indent : Nat)
    (last : Option (Text × Option CodePoint)) (breaks : Text) : List Line → Text × List Line
  | [] => (close last breaks, [])
  | l :: rest =>
    match kindOf indent l with
    | .empty b => readLines folded ending indent last (breaks ++ [b]) rest
    | .beyond => (close last breaks, l :: rest)
    | .content body b =>
      let between : Text :=
        match last with
        | none => breaks
        | some (before, b') => foldBreaks folded before body b' breaks
      let (t, behind) := readLines folded ending indent (some (body, b)) [] rest
      (between ++ body ++ t, behind)
where
  /-- What remains of the breaks at the end. -/
  close (last : Option (Text × Option CodePoint)) (breaks : Text) : Text :=
    let own : Text := (last.bind Prod.snd).toList
    match ending with
    | .keep => own ++ breaks
    | .one => own
    | .drop => []

/-- The scalar behind a mark, inside of something indented by `outer` columns, and what follows. -/
def read (folded : Bool) (outer : Nat) (t : Text) : Except Flaw (Text × Text) := do
  let (header, t) ← headerMarks t
  if !endsName t then .error .malformed
  else
    let ls := lines (← afterLine t)
    let least := max 1 outer
    let indent :=
      match header.depth with
      | some depth => least + depth - 1
      | none => max least (leadingDepth 0 ls)
    let (text, behind) := readLines folded header.ending indent none [] ls
    return (text, unlines behind)

end IndexChain.Yaml.Literal
