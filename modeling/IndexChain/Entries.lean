import IndexChain.Pairs
import IndexChain.Text

/-!
# Entries

The entries of an index's metadata: texts under distinct keys, in the order in which the keys were
first written. That the keys are distinct is part of the type, so every reader and writer of entries
can rely on it.
-/

namespace IndexChain

/-- Texts under distinct keys, in order. -/
structure Entries where
  /-- The keys with their values. -/
  pairs : List (Text × Text)
  /-- No key stands twice. -/
  nodup_keys : (pairs.map Prod.fst).Nodup

namespace Entries

theorem ext {a b : Entries} (h : a.pairs = b.pairs) : a = b := by
  cases a; cases b; simp_all

def empty : Entries := ⟨[], List.Pairwise.nil⟩

instance : Inhabited Entries := ⟨empty⟩

/-- Sets the value of a key: in place if the key is there, else at the end. -/
def insert (e : Entries) (key value : Text) : Entries :=
  ⟨Pairs.set key value e.pairs, Pairs.nodup_keys_set e.nodup_keys⟩

/-- The value of a key. -/
def get? (e : Entries) (key : Text) : Option Text := Pairs.get? key e.pairs

/-- The entries of a list in which keys repeat: a later value replaces an earlier one. -/
def ofList (pairs : List (Text × Text)) : Entries :=
  pairs.foldl (fun e p => e.insert p.1 p.2) empty

/-- The first entries brought up to date by the second: the values of the second win, and the keys
of the first keep their places. -/
def update (e other : Entries) : Entries := other.pairs.foldl (fun e p => e.insert p.1 p.2) e

/-- Whether two lists of entries give the same values to the same keys, in whatever order. -/
def sameMapping (a b : Entries) : Bool :=
  a.pairs.length == b.pairs.length && a.pairs.all fun (k, v) => b.get? k == some v

@[simp] theorem get?_insert (e : Entries) (k k' v : Text) :
    (e.insert k v).get? k' = if k = k' then some v else e.get? k' :=
  Pairs.get?_set k k' v e.pairs

end Entries

end IndexChain
