import IndexChain.Yaml.Object

/-!
# YAML documents

The value of a document is that of its root; a text without a document has none.
-/

namespace IndexChain.Yaml

/-- The value of the only document in a text; nothing is a document of its own. -/
def read (t : Text) : Except Flaw Value := do
  let t := t.unifyBreaks
  if !t.all isAllowed then .error .malformed
  else
    let (tokens, flaw) := Token.ofText t
    match ← Graph.ofTokens? tokens flaw with
    | none => return .null
    | some g => g.value

end IndexChain.Yaml
