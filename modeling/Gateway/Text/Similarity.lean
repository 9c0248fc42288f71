/-! How alike two words are, by the letters that they share in nearly the same places. -/
namespace Gateway.Text.Similarity

/-- For each letter of the first word the place of its partner in the second, at most `range` away;
each place is taken once. -/
def partners (range : Nat) (b : List Char) : Nat → List Nat → List Char → List (Option Nat)
  | _, _, [] => []
  | i, taken, c :: rest =>
    let near := List.range' (i - range) (i + range + 1 - (i - range))
    match near.find? fun j => b[j]? == some c && !taken.contains j with
    | some j => some j :: partners range b (i + 1) (j :: taken) rest
    | none => none :: partners range b (i + 1) taken rest

/-- How far apart partners may be. -/
def reach (a b : List Char) : Nat := max a.length b.length / 2 - 1

/-- The number of shared letters, and how many pairs of them stand in the other order. -/
def shared (a b : List Char) : Nat × Nat :=
  let found := partners (reach a b) b 0 [] a
  let places := found.filterMap id
  let mine := (a.zip found).filterMap fun (c, partner) => partner.map fun _ => c
  let theirs := (places.mergeSort (· ≤ ·)).filterMap (b[·]?)
  (places.length, ((mine.zip theirs).filter fun (c, d) => c != d).length / 2)

/-- Whether the mean of the shares of each word that is common, and of the common letters that are
in order, exceeds seven tenths. -/
def isAlike (a b : List Char) : Bool :=
  let (m, swaps) := shared a b
  21 * a.length * b.length * m
    < 10 * (m * m * b.length + m * m * a.length + (m - swaps) * a.length * b.length)

end Gateway.Text.Similarity
