import ProviderRegistry.Text.Blank
import ProviderRegistry.Text.Lowercase

/-!
# Console markup

What a console shows of a text with tags in brackets: the text without the
tags. A tag starts with a small letter or one of three signs; a backslash
before a bracket makes it an ordinary one; a closing tag must close one that
is open. In a text that comes from elsewhere, tags stand for themselves.
-/

namespace ProviderRegistry.Text

/-- Whether a character may come first in a tag. -/
def startsTag (c : Char) : Bool := ('a' ≤ c && c ≤ 'z') || c == '#' || c == '/' || c == '@'

/-- The tag after an opening bracket, and what follows its closing bracket. -/
def takeTag (text : List Char) : Option (List Char × List Char) :=
  let tag := text.takeWhile fun c => c != ']' && c != '['
  match text.drop tag.length with
  | ']' :: rest => if tag.head?.any startsTag then some (tag, rest) else none
  | _ => none

/-- The tags that are open after a tag, if it may stand there. -/
def afterTag (stack : List (List Char)) (tag : List Char) : Option (List (List Char)) :=
  match tag.takeWhile (· != '=') with
  | '/' :: name =>
    let name := lower (trim name)
    if name.isEmpty then (if stack.isEmpty then none else some stack.tail)
    else if stack.contains name then some (stack.erase name) else none
  | name => some (lower (trim name) :: stack)

/-- A text without its tags; each of the `steps` takes a character at least. Nothing if a
tag closes none that is open. -/
def withoutTags : (steps : Nat) → (stack : List (List Char)) → List Char → Option (List Char)
  | 0, _, _ => some []
  | steps + 1, stack, text =>
    let marks := text.takeWhile (· == '\\')
    match text.drop marks.length with
    | [] => some marks
    | '[' :: rest =>
      match takeTag rest with
      | none => (withoutTags steps stack rest).map ((marks.drop 1 ++ ['[']) ++ ·)
      | some (tag, after) =>
        let kept := List.replicate (marks.length / 2) '\\'
        if marks.length % 2 == 1 then
          (withoutTags steps stack after).map ((kept ++ ['['] ++ tag ++ [']']) ++ ·)
        else (afterTag stack tag).bind fun stack =>
          (withoutTags steps stack after).map (kept ++ ·)
    | c :: rest => (withoutTags steps stack rest).map ((marks ++ [c]) ++ ·)

/-- What a console shows of a text; nothing if its tags do not match. -/
def plain? (text : String) : Option String :=
  if !text.contains '[' then some text
  else (withoutTags (text.length + 1) [] text.toList).map String.ofList

/-! ## Texts without tags -/

/-- A text in which tags stand for themselves, as a console shows it; each of the `steps`
takes a character at least. A backslash before a bracket that starts no tag is lost, and
one that ends the text alone is doubled. -/
def keepingTags : (steps : Nat) → List Char → List Char
  | 0, _ => []
  | steps + 1, text =>
    let marks := text.takeWhile (· == '\\')
    match text.drop marks.length with
    | [] => if marks.length = 1 then marks ++ marks else marks
    | '[' :: rest =>
      match takeTag rest with
      | some (tag, after) => marks ++ '[' :: (tag ++ ']' :: keepingTags steps after)
      | none => marks.drop 1 ++ '[' :: keepingTags steps rest
    | c :: rest => marks ++ c :: keepingTags steps rest

/-- What a console shows of a text in which tags stand for themselves. -/
def verbatim (text : String) : String :=
  String.ofList (keepingTags (text.length + 1) text.toList)

/-! ## Layout -/

/-- Whether a console leaves out a character: those that ring, go back or feed. -/
def isUnprinted (c : Char) : Bool := [7, 8, 11, 12, 13].contains c.toNat

/-- How far apart tab stops are. -/
def tabWidth : Nat := 8

/-- A text with blanks in place of tabs, up to the next tab stop. All other characters
count as one column. -/
def expandTabs (column : Nat) : List Char → List Char
  | [] => []
  | '\t' :: rest =>
    let width := tabWidth - column % tabWidth
    List.replicate width ' ' ++ expandTabs (column + width) rest
  | '\n' :: rest => '\n' :: expandTabs 0 rest
  | c :: rest => c :: expandTabs (column + 1) rest

/-- A text as a console lays it out. -/
def laidOut (text : String) : String :=
  String.ofList (expandTabs 0 (text.toList.filter (!isUnprinted ·)))

end ProviderRegistry.Text
