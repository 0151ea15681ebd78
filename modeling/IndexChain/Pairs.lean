/-!
# Lists of pairs as finite maps

A list of keys with values, in the order in which the keys came first. Setting a key that is there
overwrites its value where it stands; a new key goes to the end.
-/

namespace IndexChain.Pairs

variable {κ α : Type} [DecidableEq κ]

/-- Sets the value of a key. -/
def set (k : κ) (v : α) : List (κ × α) → List (κ × α)
  | [] => [(k, v)]
  | (k', v') :: rest => if k' = k then (k', v) :: rest else (k', v') :: set k v rest

/-- The value of a key. -/
def get? (k : κ) : List (κ × α) → Option α
  | [] => none
  | (k', v) :: rest => if k' = k then some v else get? k rest

/-- The list without a key. -/
def erase (k : κ) (pairs : List (κ × α)) : List (κ × α) := pairs.filter fun p => p.1 ≠ k

/-- The keys with values of a list in which keys repeat: of several values the last one stands. -/
def ofList (pairs : List (κ × α)) : List (κ × α) :=
  pairs.foldl (fun acc p => set p.1 p.2 acc) []

theorem keys_set (k : κ) (v : α) (pairs : List (κ × α)) :
    (set k v pairs).map Prod.fst =
      if k ∈ pairs.map Prod.fst then pairs.map Prod.fst else pairs.map Prod.fst ++ [k] := by
  induction pairs with
  | nil => rfl
  | cons p rest ih =>
    obtain ⟨k', v'⟩ := p
    by_cases h : k' = k
    · simp [set, h]
    · have h' : ¬ k = k' := fun e => h e.symm
      simp only [set, h, if_false, List.map_cons, ih, List.mem_cons, h', false_or]
      split <;> simp

/-- Setting a key keeps the keys distinct. -/
theorem nodup_keys_set {k : κ} {v : α} {pairs : List (κ × α)}
    (h : (pairs.map Prod.fst).Nodup) : ((set k v pairs).map Prod.fst).Nodup := by
  rw [keys_set]
  split
  · exact h
  · next hk =>
    rw [List.nodup_append]
    refine ⟨h, by simp, ?_⟩
    intro a ha b hb hab
    rw [List.mem_singleton] at hb
    exact hk (hb ▸ hab ▸ ha)

theorem get?_set (k k' : κ) (v : α) (pairs : List (κ × α)) :
    get? k' (set k v pairs) = if k = k' then some v else get? k' pairs := by
  induction pairs with
  | nil => rfl
  | cons p rest ih =>
    obtain ⟨a, w⟩ := p
    by_cases h : a = k
    · subst h
      by_cases h' : a = k' <;> simp [set, get?, h']
    · by_cases h' : a = k'
      · subst h'
        have : ¬ k = a := fun e => h e.symm
        simp [set, get?, h, this]
      · simp [set, get?, h, h', ih]

theorem mem_of_get? {k : κ} {v : α} {pairs : List (κ × α)} (h : get? k pairs = some v) :
    (k, v) ∈ pairs := by
  induction pairs with
  | nil => cases h
  | cons p rest ih =>
    unfold get? at h
    split at h
    · next hkey =>
      obtain rfl := Option.some.inj h
      exact hkey ▸ List.mem_cons_self
    · exact List.mem_cons_of_mem p (ih h)

theorem get?_eq_none_iff {k : κ} {pairs : List (κ × α)} :
    get? k pairs = none ↔ k ∉ pairs.map Prod.fst := by
  induction pairs with
  | nil => simp [get?]
  | cons p pairs ih =>
    rw [get?, List.map_cons, List.mem_cons, not_or, ← ih]
    split
    · next h => simp [h]
    · next h => simp [Ne.symm h]

/-- Among distinct keys a pair is found by its key. -/
theorem get?_of_mem {k : κ} {v : α} {pairs : List (κ × α)} (hkeys : (pairs.map Prod.fst).Nodup)
    (h : (k, v) ∈ pairs) : get? k pairs = some v := by
  induction pairs with
  | nil => cases h
  | cons p rest ih =>
    obtain ⟨hp, hrest⟩ := List.nodup_cons.mp hkeys
    unfold get?
    rcases List.mem_cons.mp h with rfl | hmem
    · simp
    · have hne : p.1 ≠ k := fun heq => hp (heq ▸ List.mem_map_of_mem hmem)
      rw [if_neg hne]
      exact ih hrest hmem

end IndexChain.Pairs
