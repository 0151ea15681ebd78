import IndexChain.Yaml.Break

/-!
# Scalars without quotes

A scalar without quotes goes on, over line breaks too, until a mark, a comment or a line that is
indented too little ends it.
-/

namespace IndexChain.Yaml.Unquoted

/-- What was read of a scalar. -/
structure Result where
  text : Text
  /-- Whether a line was ended behind the scalar's last word. -/
  endedLine : Bool
  /-- What follows, the gap behind the last word left out. -/
  rest : Text

def isOneOf (s : String) (c : CodePoint) : Bool := s.toList.any fun d => CodePoint.ofChar d = c

/-- Whether a word ends in front of a code point that another text follows. Inside brackets more
marks end it. -/
def endsAt (inBrackets : Bool) (c : CodePoint) (rest : Text) : Bool :=
  isBlankOrBreak c ||
    (c = ':' && (endsWord rest || (inBrackets && rest.head?.any (isOneOf ",[]\x7b\x7d")))) ||
    (inBrackets && isOneOf ",?[]\x7b\x7d" c)

/-- Whether a scalar can begin with a code point that another text follows. -/
def canBegin (inBrackets : Bool) (c : CodePoint) (rest : Text) : Bool :=
  (!isBlankOrBreak c && !isOneOf "-?:,[]\x7b\x7d#&*!|>'\"%@`" c) ||
    (!endsWord rest && (c = '-' || (!inBrackets && isOneOf "?:" c)))

/-- The result at the end of a scalar whose code points were collected, the last one first. -/
def stop (acc : Text) (gap : Gap) (rest : Text) : Result :=
  ⟨acc.reverse, !gap.breaks.isEmpty, rest⟩

/-- A scalar from its first code point on, in lines indented by at least `indent` columns outside
of brackets. `column` counts the blanks of a line that was begun behind the last word. -/
def read (inBrackets : Bool) (indent : Nat) (acc : Text) (gap : Gap) (column : Nat) :
    Text → Result
  | [] => stop acc gap []
  | c :: rest =>
    if c = ' ' then read inBrackets indent acc (gap.blank c) (column + 1) rest
    else
      match break? c with
      | some b =>
        if startsDocument rest || endsDocument rest then ⟨acc.reverse, true, rest⟩
        else read inBrackets indent acc (gap.lineBreak b) 0 rest
      | none =>
        if endsAt inBrackets c rest then stop acc gap (c :: rest)
        else if gap.isNothing then read inBrackets indent (c :: acc) {} 0 rest
        else if c = '#' then stop acc gap (c :: rest)
        else if !gap.breaks.isEmpty && !inBrackets && column < indent then stop acc gap (c :: rest)
        else read inBrackets indent (c :: (gap.text.reverse ++ acc)) {} 0 rest

end IndexChain.Yaml.Unquoted
