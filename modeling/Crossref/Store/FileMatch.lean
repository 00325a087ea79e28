/-
How a search compares a stored path with the file that is asked for. The comparison is an expression of SQL: functions
of SQL see a text up to its first null character only, while `=` and `||` see all of it.
-/

namespace Crossref

namespace Sql

/-- What a function sees of a text. -/
def visible (text : String) : List Char :=
  text.toList.takeWhile (· ≠ Char.ofNat 0)

/-- `length(text)`. -/
def length (text : String) : Nat :=
  (visible text).length

/-- How many characters stand before the one where a part starts. Characters are counted from one on, and backwards
from the last one if the start is negative; what would start before the first character starts there. -/
def skipped (length : Nat) (start : Int) : Nat :=
  if start < 0 then (length + start).toNat else (start - 1).toNat

/-- `substr(text, start)`. -/
def substr (text : String) (start : Int) : String :=
  String.ofList ((visible text).drop (skipped (length text) start))

end Sql

/-- `substr(path, -(length(file) + 1)) = '/' || file`. -/
def endsWithSegments (path file : String) : Bool :=
  Sql.substr path (-(Sql.length file + 1)) = "/" ++ file

/-- The paths are equal, or one of them ends with the other, cut at a slash. -/
def matchesFile (path file : String) : Bool :=
  path = file || endsWithSegments path file || endsWithSegments file path

end Crossref
