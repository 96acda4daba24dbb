/-!
# Lines

Two readings of a text as lines. A file's text is read with one spelling for
all line ends, after which only `'\n'` ends a line (`linesOf`). A text in memory
is split at every Unicode line boundary (`splitLines`). In both, what follows
the last end is a line only when it is not empty.
-/

namespace ProviderRegistry.Text

/-- Replaces the other two spellings of a line end by `'\n'`. -/
def normalizeNewlines : List Char → List Char
  | [] => []
  | '\r' :: '\n' :: rest => '\n' :: normalizeNewlines rest
  | '\r' :: rest => '\n' :: normalizeNewlines rest
  | c :: rest => c :: normalizeNewlines rest

/-- Puts a character in front of the first line. -/
def consFirst (c : Char) : List (List Char) → List (List Char)
  | [] => [[c]]
  | line :: rest => (c :: line) :: rest

/-- The lines of a text whose only line end is `'\n'`, ends removed. -/
def linesOf : List Char → List (List Char)
  | [] => []
  | c :: rest => if c = '\n' then [] :: linesOf rest else consFirst c (linesOf rest)

/-- The characters that end a line by themselves. -/
def isLineBoundary (c : Char) : Bool :=
  let n := c.toNat
  (10 ≤ n && n ≤ 13) || (28 ≤ n && n ≤ 30) || n == 133 || n == 8232 || n == 8233

/-- The lines of a text split at every line boundary, ends removed. -/
def splitLines : List Char → List (List Char)
  | [] => []
  | '\r' :: '\n' :: rest => [] :: splitLines rest
  | c :: rest => if isLineBoundary c then [] :: splitLines rest else consFirst c (splitLines rest)

/-- Each line followed by `'\n'`. -/
def unlines (lines : List (List Char)) : List Char := lines.flatMap (· ++ ['\n'])

/-- The pieces of a text between the occurrences of a separator, of which there
is always at least one. -/
def pieces (separator : Char → Bool) : List Char → List (List Char)
  | [] => [[]]
  | c :: rest =>
    if separator c then [] :: pieces separator rest else consFirst c (pieces separator rest)

end ProviderRegistry.Text
