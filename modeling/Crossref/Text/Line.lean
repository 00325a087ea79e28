/-
Text cut into lines. A line ends at a line feed, a carriage return (with the line feed after it, if there is one), a
vertical tab, a form feed, one of the three larger information separators, or one of the Unicode line breaks. A break at
the end of the text opens no further line.
-/
import Crossref.Text.CodeRange

namespace Crossref.Text

def lineBreakRanges : List CodeRange :=
  [(10, 13), (28, 30), (133, 133), (8232, 8233)]

def isLineBreak (c : Char) : Bool :=
  inRanges lineBreakRanges c

/-- `line` holds the open line and `done` the finished lines, both with the latest first. -/
def linesFrom (line : List Char) (done : List (List Char)) : List Char → List (List Char)
  | [] => (if line.isEmpty then done else line.reverse :: done).reverse
  | '\r' :: '\n' :: r => linesFrom [] (line.reverse :: done) r
  | c :: r =>
    if isLineBreak c then linesFrom [] (line.reverse :: done) r
    else linesFrom (c :: line) done r

def lines (s : List Char) : List (List Char) :=
  linesFrom [] [] s

end Crossref.Text
