/-!
# Similar words

How alike two words are: the share of their characters that stand in common
runs. The longest common run is taken first, and then the longest ones on
either side of it.
-/

namespace ProviderRegistry.Text

/-- How many characters two texts start with in common. -/
def commonStart : List Char → List Char → Nat
  | a :: as, b :: bs => if a == b then commonStart as bs + 1 else 0
  | _, _ => 0

/-- A run that two texts have in common: where it starts in each, and its length. -/
structure CommonRun where
  first : Nat
  second : Nat
  length : Nat

/-- The longest common run, the first of several in the first text and then in the
second. -/
def longestRun (a b : List Char) : CommonRun :=
  (List.range a.length).foldl (fun best i =>
    (List.range b.length).foldl (fun best j =>
      let length := commonStart (a.drop i) (b.drop j)
      if best.length < length then ⟨i, j, length⟩ else best) best) ⟨0, 0, 0⟩

/-- How many characters stand in common runs. The `steps` are as many as the shorter text
has characters. -/
def commonCount : (steps : Nat) → List Char → List Char → Nat
  | 0, _, _ => 0
  | steps + 1, a, b =>
    let run := longestRun a b
    if run.length = 0 then 0
    else run.length + commonCount steps (a.take run.first) (b.take run.second) +
      commonCount steps (a.drop (run.first + run.length)) (b.drop (run.second + run.length))

/-- How alike a word is to another, as a quotient. -/
def likeness (word other : String) : Nat × Nat :=
  (2 * commonCount word.length other.toList word.toList, word.length + other.length)

/-- The words among some that are like a word, at most three, the most alike first. At
least three fifths of the characters must be in common runs. -/
def similarWords (word : String) (others : List String) : List String :=
  let alike := (others.map fun other => (likeness word other, other)).filter
    fun ((common, total), _) => 3 * total ≤ 5 * common
  ((alike.mergeSort fun ((m, t), a) ((n, u), b) =>
    decide (n * t < m * u) || (n * t == m * u && decide (b ≤ a))).map (·.2)).take 3

end ProviderRegistry.Text
