import IndexChain.Text

/-!
# Shapes of texts

A shape describes a class of texts: single code points of a class, one shape after another, one of
two, or any number of repetitions. Whether a text has a shape is decided one code point at a time:
what the rest of the text must look like is again a shape (`Shape.after`).
-/

namespace IndexChain

/-- A class of texts. -/
inductive Shape
  /-- No text. -/
  | never
  /-- The empty text alone. -/
  | nothing
  /-- One code point of a class. -/
  | one (p : CodePoint → Bool)
  /-- A text of the first shape and one of the second. -/
  | both (a b : Shape)
  /-- A text of either shape. -/
  | either (a b : Shape)
  /-- Any number of texts of a shape. -/
  | many (a : Shape)

namespace Shape

instance : Append Shape := ⟨both⟩
instance : OrOp Shape := ⟨either⟩

/-- The shape of a given text alone. -/
def word : Text → Shape
  | [] => nothing
  | [c] => one (· = c)
  | c :: rest => both (one (· = c)) (word rest)

/-- A text of one shape or of none. -/
def maybe (a : Shape) : Shape := either a nothing

/-- At least one text of a shape. -/
def repeated (a : Shape) : Shape := both a (many a)

def oneOf (s : String) : Shape := one fun c => s.toList.any fun d => CodePoint.ofChar d = c

/-- A given number of texts of a shape. -/
def times : Nat → Shape → Shape
  | 0, _ => nothing
  | 1, a => a
  | n + 1, a => both a (times n a)

/-- One of several given texts. -/
def words : List String → Shape
  | [] => never
  | [w] => word w
  | w :: rest => either (word w) (words rest)

def digit : Shape := one fun c => c.asciiDigit?.isSome

/-- Whether the empty text has the shape. -/
def takesNothing : Shape → Bool
  | never => false
  | nothing => true
  | one _ => false
  | both a b => a.takesNothing && b.takesNothing
  | either a b => a.takesNothing || b.takesNothing
  | many _ => true

/-- One shape after another, where nothing follows an impossible beginning. -/
def followed (a b : Shape) : Shape :=
  match a with
  | never => never
  | nothing => b
  | a => both a b

/-- One of two shapes, impossible ones left out. -/
def alternative (a b : Shape) : Shape :=
  match a, b with
  | never, b => b
  | a, never => a
  | a, b => either a b

/-- The shape of what may follow a code point in a text of a shape. -/
def after (c : CodePoint) : Shape → Shape
  | never => never
  | nothing => never
  | one p => if p c then nothing else never
  | both a b =>
    if a.takesNothing then alternative (followed (a.after c) b) (b.after c)
    else followed (a.after c) b
  | either a b => alternative (a.after c) (b.after c)
  | many a => followed (a.after c) (many a)

def accepts : Shape → Text → Bool
  | a, [] => a.takesNothing
  | never, _ :: _ => false
  | a, c :: rest => accepts (a.after c) rest

end Shape

end IndexChain
