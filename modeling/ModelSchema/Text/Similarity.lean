namespace ModelSchema.Text

/-- Letters of the second word with their places; a matched letter is taken out. -/
abbrev Letters := List (Nat × Char)

/-- Matches each letter of a word, from place `i` on, with the first equal one within reach. Gives
the matched letters with their places in the second word. -/
def matchLetters (reach : Nat) : Nat → List Char → Letters → Letters
  | _, [], _ => []
  | i, c :: cs, free =>
    match free.find? fun (j, d) => c = d && i ≤ j + reach && j ≤ i + reach with
    | some found => found :: matchLetters reach (i + 1) cs (free.erase found)
    | none => matchLetters reach (i + 1) cs free

def transpositions (found : Letters) : Nat :=
  let sorted := found.mergeSort fun a b => a.1 ≤ b.1
  ((found.zip sorted).filter fun (a, b) => a.2 ≠ b.2).length / 2

def jaro (a b : List Char) : Float :=
  if a.isEmpty && b.isEmpty then 1
  else
    let found := matchLetters (max a.length b.length / 2 - 1) 0 a
      (b.zipIdx.map fun (c, i) => (i, c))
    let m := found.length
    if m = 0 then 0
    else
      (m.toFloat / a.length.toFloat + m.toFloat / b.length.toFloat +
        (m - transpositions found).toFloat / m.toFloat) / 3

def commonBeginning : List Char → List Char → Nat
  | a :: as, b :: bs => if a = b then commonBeginning as bs + 1 else 0
  | _, _ => 0

/-- The measure of Jaro, raised by Winkler's bonus for a common beginning of at most four letters. -/
def similarity (a b : List Char) : Float :=
  let s := jaro a b
  if s > 0.7 then s + 0.1 * (commonBeginning (a.take 4) b).toFloat * (1 - s) else s

def closest? (word : String) (known : List String) : Option String :=
  let alike := known.filterMap fun k =>
    let s := similarity word.toList k.toList
    if s > 0.8 then some (s, k) else none
  (alike.foldl (fun (best : Option (Float × String)) new =>
    match best with
    | some b => if b.1 < new.1 then some new else best
    | none => some new) none).map (·.2)

end ModelSchema.Text
