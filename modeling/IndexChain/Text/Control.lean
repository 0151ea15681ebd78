import IndexChain.Text

/-!
# Control sequences

A control sequence tells a terminal how to show what follows: an escape, an opening bracket,
parameters and a letter. Output that does not go to a terminal is written without them.
-/

namespace IndexChain.Text

/-- The code point that begins a control sequence. -/
def escapePoint : CodePoint := '\x1b'

/-- The bracket behind it. -/
def openBracket : CodePoint := '['

/-- Whether a code point is a part of the parameters of a control sequence. -/
def isParameter (c : CodePoint) : Bool := c.asciiDigit?.isSome || c = ';' || c = '?'

/-- A text without control sequences. `begun` is the beginning of one that was read already. -/
def withoutControlFrom (begun : Text) : Text → Text
  | [] => begun
  | c :: rest =>
    if c = escapePoint then begun ++ withoutControlFrom [c] rest
    else
      match begun with
      | [] => c :: withoutControlFrom [] rest
      | [_] =>
        if c = openBracket then withoutControlFrom (begun ++ [c]) rest
        else begun ++ c :: withoutControlFrom [] rest
      | _ =>
        if isParameter c then withoutControlFrom (begun ++ [c]) rest
        else if c.isAsciiLetter then withoutControlFrom [] rest
        else begun ++ c :: withoutControlFrom [] rest

/-- A text without control sequences. -/
def withoutControl (t : Text) : Text := withoutControlFrom [] t

end IndexChain.Text
