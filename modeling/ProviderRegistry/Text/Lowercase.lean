import ProviderRegistry.Text.Lowercase.Table

/-!
# Lower-casing

Every character is mapped by itself except two: a capital I with a dot above
becomes two characters, and a capital sigma takes its final form at the end
of a word.
-/

namespace ProviderRegistry.Text

/-- The run that holds `n`, if there is one. -/
def CaseRun.find? (n : Nat) : Option CaseRun :=
  lowercaseRuns.find? fun run => run.first ≤ n && n ≤ run.last && (n - run.first) % run.step == 0

/-- The lower-case form of a character, whatever stands around it. -/
def lowerChar (c : Char) : List Char :=
  if c.toNat < 128 then [c.toLower]
  else if c.toNat = 304 then ['i', Char.ofNat 775]
  else match CaseRun.find? c.toNat with
    | some run => [Char.ofNat (Int.toNat (c.toNat + run.shift))]
    | none => [c]

/-- Whether the first character that the sigma rule does not look past is a
letter with case. -/
def meetsCased (context : List Char) : Bool :=
  match context.dropWhile caseIgnorable.contains with
  | [] => false
  | c :: _ => casedLetters.contains c

/-- Lower-cases a text of which `before`, reversed, has been read: a capital
sigma is final when a cased letter stands before it and none after it. -/
def lowerFrom (before : List Char) : List Char → List Char
  | [] => []
  | c :: rest =>
    let lowered :=
      if c = 'Σ' then
        if meetsCased before && !meetsCased rest then ['ς'] else ['σ']
      else lowerChar c
    lowered ++ lowerFrom (c :: before) rest

/-- The lower-case form of a text. -/
def lower (text : List Char) : List Char := lowerFrom [] text

end ProviderRegistry.Text
