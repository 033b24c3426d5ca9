/-! How alike two names are, and the likeliest spelling among some candidates. The measure is the
Jaro similarity with the bonus of Winkler for a common beginning: one for equal names and zero for
names that share no character. -/

namespace Easel.Similarity

/-- The first place from `low` up to and without `high` whose character is `c` and is not taken. -/
def findFree (name : Array Char) (taken : List Nat) (c : Char) (low high : Nat) : Option Nat :=
  (List.range' low (high - low)).find? fun j => name[j]? = some c && !taken.contains j

/-- The places where the characters of the first name meet equal ones of the second, in the order
of the first. Each character meets the first one that is free and no further than `range` away;
`index` counts the characters that were looked at. -/
def matchPlaces (second : Array Char) (range : Nat) :
    List Char → (index : Nat) → (taken : List Nat) → List (Char × Nat)
  | [], _, _ => []
  | c :: rest, index, taken =>
    match findFree second taken c (index - range) (min second.size (index + range + 1)) with
    | some j => (c, j) :: matchPlaces second range rest (index + 1) (j :: taken)
    | none => matchPlaces second range rest (index + 1) taken

/-- The Jaro similarity: the share of matches in both names and the share of matches in order. Two
matches that are out of order count as one transposition. -/
def jaro (first second : List Char) : Float :=
  if first.isEmpty && second.isEmpty then 1.0
  else if first.isEmpty || second.isEmpty then 0.0
  else
    let range := max first.length second.length / 2 - 1
    let met := matchPlaces second.toArray range first 0 []
    let places := met.map (·.2)
    let inOrder := second.zipIdx.filterMap fun (c, j) => if places.contains j then some c else none
    let displaced := (met.zip inOrder).countP fun (m, c) => m.1 != c
    let matched := Float.ofNat met.length
    if met.isEmpty then 0.0
    else
      (matched / Float.ofNat first.length + matched / Float.ofNat second.length +
        Float.ofNat (met.length - displaced / 2) / matched) / 3.0

/-- The number of characters that two names have in common at their beginning, at most four. -/
def commonStart (first second : List Char) : Nat :=
  (((first.take 4).zip second).takeWhile fun (c, d) => c == d).length

/-- The Jaro similarity, raised for names that are alike and begin alike. -/
def score (first second : List Char) : Float :=
  let base := jaro first second
  if 0.7 < base then base + 0.1 * Float.ofNat (commonStart first second) * (1.0 - base) else base

/-- The rank of a score. Doubles that are not negative are ordered as their bits are. -/
def rank (score : Float) : Nat := score.toBits.toNat

/-- The last of the entries that have the highest rank. -/
def lastBest {β : Type} : List (β × Nat) → Option (β × Nat)
  | [] => none
  | entry :: rest =>
    match lastBest rest with
    | none => some entry
    | some best => if entry.2 ≤ best.2 then some best else some entry

/-- The candidates that are close enough to be a misspelling of the name, with their ranks. -/
def likely (name : String) (candidates : List String) : List (String × Nat) :=
  candidates.filterMap fun candidate =>
    let s := score name.toList candidate.toList
    if 0.8 ≤ s then some (candidate, rank s) else none

/-- The candidate that is closest to a name, if any is close enough. The last one wins a tie. -/
def closest? (name : String) (candidates : List String) : Option String :=
  (lastBest (likely name candidates)).map (·.1)

end Easel.Similarity
