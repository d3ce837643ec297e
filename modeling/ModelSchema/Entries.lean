namespace ModelSchema

/-- Values under string keys, in the order in which the keys were first written. -/
abbrev Entries (α : Type) := List (String × α)

namespace Entries

variable {α β : Type}

def keys (es : Entries α) : List String :=
  es.map Prod.fst

def get? (es : Entries α) (key : String) : Option α :=
  List.lookup key es

/-- A key that is present keeps its place and takes the new value. -/
def insert : Entries α → String → α → Entries α
  | [], key, value => [(key, value)]
  | (k, v) :: es, key, value =>
    if k = key then (k, value) :: es else (k, v) :: insert es key value

def ofList (pairs : List (String × α)) : Entries α :=
  pairs.foldl (fun es p => insert es p.1 p.2) []

def modify (f : α → α) (key : String) : Entries α → Entries α
  | [] => []
  | (k, v) :: es => if k = key then (k, f v) :: es else (k, v) :: modify f key es

/-- Keeps the keys ascending; a key that is present takes the new value. -/
def insertSorted : Entries α → String → α → Entries α
  | [], key, value => [(key, value)]
  | (k, v) :: es, key, value =>
    if k = key then (k, value) :: es
    else if key < k then (key, value) :: (k, v) :: es
    else (k, v) :: insertSorted es key value

theorem get?_insert_self (es : Entries α) (key : String) (value : α) :
    get? (insert es key value) key = some value := by
  induction es with
  | nil => simp [insert, get?]
  | cons p es ih =>
    obtain ⟨k, v⟩ := p
    by_cases h : k = key
    · simp [insert, get?, h]
    · have h' : (key == k) = false := beq_false_of_ne fun e => h e.symm
      simp only [insert, h, if_false, get?, List.lookup_cons, h'] at ih ⊢
      exact ih

theorem keys_insert (es : Entries α) (key : String) (value : α) :
    keys (insert es key value) = if key ∈ keys es then keys es else keys es ++ [key] := by
  induction es with
  | nil => simp [insert, keys]
  | cons p es ih =>
    obtain ⟨k, v⟩ := p
    by_cases h : k = key
    · simp [insert, keys, h]
    · have h' : key ≠ k := fun e => h e.symm
      simp only [insert, h, if_false, keys, List.map_cons, List.mem_cons, h', false_or] at ih ⊢
      rw [ih]
      split <;> rename_i hm <;> simp [hm]

end Entries

end ModelSchema
