import IndexChain.Yaml.Break

/-!
# Scalars in quotes

A scalar in quotes is read in two steps. The first finds its end and resolves quote marks and
escapes; what comes out tells blanks and line breaks from the code points of words. The second folds
the lines.
-/

namespace IndexChain.Yaml.Quoted

/-- A part of a scalar in quotes. -/
inductive Piece
  /-- A code point of a word, or an escaped one. -/
  | point (c : CodePoint)
  /-- A blank that is not escaped. -/
  | blank (c : CodePoint)
  /-- A line break that is not escaped, as it reads. -/
  | lineBreak (c : CodePoint)
  /-- An escaped line break: nothing stands between the lines. -/
  | joined

/-- The escapes of one letter or mark. -/
def escapes : List (Char × Nat) := [
  ('0', 0x00), ('a', 0x07), ('b', 0x08), ('t', 0x09), ('\t', 0x09), ('n', 0x0A), ('v', 0x0B),
  ('f', 0x0C), ('r', 0x0D), ('e', 0x1B), (' ', 0x20), ('"', 0x22), ('\\', 0x5C), ('/', 0x2F),
  ('N', 0x85), ('_', 0xA0), ('L', 0x2028), ('P', 0x2029)]

/-- What an escape of one letter stands for. -/
def escape? (c : CodePoint) : Option CodePoint :=
  (escapes.find? fun (letter, _) => CodePoint.ofChar letter = c).map fun (_, n) => .ofNat n

/-- How many hexadecimal digits follow the letter of an escape. -/
def codeLength? (c : CodePoint) : Option Nat :=
  if c = 'x' then some 2 else if c = 'u' then some 4 else if c = 'U' then some 8 else none

/-- Where in a scalar the reader is. -/
inductive Place
  | between
  /-- Behind a quote in single quotes, which is doubled or ends the scalar. -/
  | behindQuote
  /-- Behind a backslash. -/
  | escaped
  /-- Inside an escape that names its code point: the digits left and the number so far. -/
  | code (left value : Nat)

/-- The code point that an escape names. -/
def codePoint (value : Nat) : Except Flaw CodePoint :=
  if h : value < 0x110000 then .ok ⟨value, h⟩
  else if value < 0x80000000 then .error .badValue
  else .error .tooLarge

/-- One more piece in front of a scalar's pieces. -/
def consPiece (p : Piece) (r : Except Flaw (List Piece × Text)) : Except Flaw (List Piece × Text) :=
  r.map fun (ps, rest) => (p :: ps, rest)

/-- The pieces of a scalar up to its closing quote, and what follows. No line of it may look like
the beginning or the end of a document. -/
def pieces (double : Bool) : Place → Text → Except Flaw (List Piece × Text)
  | .behindQuote, [] => .ok ([], [])
  | _, [] => .error .malformed
  | .behindQuote, c :: rest =>
    if c = '\'' then consPiece (.point c) (pieces double .between rest) else .ok ([], c :: rest)
  | .escaped, c :: rest =>
    match escape? c, codeLength? c, break? c with
    | some d, _, _ => consPiece (.point d) (pieces double .between rest)
    | none, some n, _ => pieces double (.code n 0) rest
    | none, none, some _ =>
      if startsDocument rest || endsDocument rest then .error .malformed
      else consPiece .joined (pieces double .between rest)
    | none, none, none => .error .malformed
  | .code left value, c :: rest =>
    match c.hexDigit? with
    | none => .error .malformed
    | some d =>
      let value := 16 * value + d
      if 1 < left then pieces double (.code (left - 1) value) rest
      else do
        let point ← codePoint value
        consPiece (.point point) (pieces double .between rest)
  | .between, c :: rest =>
    if double && c = '"' then .ok ([], rest)
    else if !double && c = '\'' then pieces double .behindQuote rest
    else if double && c = '\\' then pieces double .escaped rest
    else if c.val == 0x20 || c.val == 0x09 then
      consPiece (.blank c) (pieces double .between rest)
    else
      match break? c with
      | none => consPiece (.point c) (pieces double .between rest)
      | some b =>
        if startsDocument rest || endsDocument rest then .error .malformed
        else consPiece (.lineBreak b) (pieces double .between rest)

/-- The text of a gap; behind an escaped line break all further breaks count. -/
def gapText (joined : Bool) (g : Gap) : Text := if joined then g.breaks.reverse else g.text

/-- The text of a scalar's pieces, behind a gap. -/
def fold (joined : Bool) (g : Gap) : List Piece → Text
  | [] => gapText joined g
  | .point c :: rest => gapText joined g ++ c :: fold false {} rest
  | .blank c :: rest => fold joined (g.blank c) rest
  | .lineBreak c :: rest => fold joined (g.lineBreak c) rest
  | .joined :: rest => gapText joined g ++ fold true {} rest

/-- The scalar behind an opening quote, and what follows its closing quote. -/
def read (double : Bool) (t : Text) : Except Flaw (Text × Text) := do
  let (ps, rest) ← pieces double .between t
  return (fold false {} ps, rest)

end IndexChain.Yaml.Quoted
