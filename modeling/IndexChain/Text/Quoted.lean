import IndexChain.Text.Printable

/-!
# Texts quoted in messages

A message shows a text in single quotes, or in double quotes where that saves an escape. Code points
that do not show are written as escapes, so a message never breaks the line it stands on.
-/

namespace IndexChain

namespace Text

def quotePoint (mark c : CodePoint) : Text :=
  if c = mark || c = '\\' then ['\\', c]
  else if c = '\n' then "\\n"
  else if c = '\r' then "\\r"
  else if c = '\t' then "\\t"
  else if c.isPrintable then [c]
  else if c.val < 0x100 then "\\x" ++ smallHex 2 c.val
  else if c.val < 0x10000 then "\\u" ++ smallHex 4 c.val
  else "\\U" ++ smallHex 8 c.val

/-- A text as messages show it. Double quotes are used if the text has a single quote and no double
one. -/
def quote (t : Text) : Text :=
  let single : CodePoint := '\''
  let double : CodePoint := '"'
  let mark := if List.contains t single && !List.contains t double then double else single
  mark :: t.flatMap (quotePoint mark) ++ [mark]

/-- An optional text as messages show it. -/
def quote? : Option Text → Text
  | none => "None"
  | some t => quote t

end Text

end IndexChain
