/-
Blank characters, and text cut at them. `words` gives the maximal runs of characters that are not blank.
-/
import Crossref.Text.CodeRange

namespace Crossref.Text

/-- Unicode white space together with the four information separators. -/
def blankRanges : List CodeRange :=
  [(9, 13), (28, 32), (133, 133), (160, 160), (5760, 5760), (8192, 8202), (8232, 8233), (8239, 8239), (8287, 8287),
   (12288, 12288)]

def isBlank (c : Char) : Bool :=
  inRanges blankRanges c

def trimStart (s : List Char) : List Char :=
  s.dropWhile isBlank

def trimEnd (s : List Char) : List Char :=
  (s.reverse.dropWhile isBlank).reverse

def trim (s : List Char) : List Char :=
  trimEnd (trimStart s)

def words : List Char → List (List Char)
  | [] => []
  | [c] => if isBlank c then [] else [[c]]
  | c :: d :: r =>
    if isBlank c then words (d :: r)
    else if isBlank d then [c] :: words (d :: r)
    else match words (d :: r) with
      | [] => [[c]]
      | w :: ws => (c :: w) :: ws

end Crossref.Text
