/-
Paths as they are written: a root, if the path is absolute, and the segments after it. Empty segments and segments that
are a single dot are not kept; two dots are.
-/

namespace Crossref

/-- A path in the form the index stores: every backslash is a slash. -/
def slashed (path : String) : String :=
  String.ofList (path.toList.map fun c => if c = '\\' then '/' else c)

/-- The pieces between the slashes; there is always one more of them than there are slashes. -/
def splitSlashes : List Char → List (List Char)
  | [] => [[]]
  | c :: r =>
    if c = '/' then [] :: splitSlashes r
    else match splitSlashes r with
      | [] => [[c]]
      | s :: ss => (c :: s) :: ss

/-- The segments of a slashed path, empty ones included. -/
def segments (path : String) : List String :=
  (splitSlashes path.toList).map String.ofList

structure Path where
  /-- Empty, one slash, or two slashes: exactly two at the start are kept apart from one. -/
  root : String
  segments : List String
  deriving DecidableEq, Repr

namespace Path

def rootOf : List Char → String
  | '/' :: '/' :: '/' :: _ => "/"
  | '/' :: '/' :: _ => "//"
  | '/' :: _ => "/"
  | _ => ""

def ofString (s : String) : Path where
  root := rootOf s.toList
  segments := (Crossref.segments s).filter fun g => g ≠ "" && g ≠ "."

def isAbsolute (p : Path) : Bool :=
  p.root ≠ ""

/-- The written form; the empty relative path is a dot. -/
def toString (p : Path) : String :=
  if p.root = "" && p.segments.isEmpty then "." else p.root ++ "/".intercalate p.segments

/-- The last segment, empty for a root and for the empty path. -/
def name (p : Path) : String :=
  p.segments.getLastD ""

def parent (p : Path) : Path :=
  { p with segments := p.segments.dropLast }

def child (p : Path) (segment : String) : Path :=
  { p with segments := p.segments ++ [segment] }

/-- From the last dot of the name on; empty if that dot opens or ends the name. -/
def suffix (p : Path) : String :=
  let cs := p.name.toList
  let tail := (cs.reverse.takeWhile (· ≠ '.')).reverse
  if tail.isEmpty || cs.length ≤ tail.length + 1 then "" else String.ofList ('.' :: tail)

/-- Walks the segments from an absolute place; two dots lead to the parent, and the root is its own parent. -/
def walk (start : List String) (segments : List String) : List String :=
  segments.foldl (fun place g => if g = ".." then place.dropLast else place ++ [g]) start

/-- Where the segments start, seen from a directory. -/
def start (directory : List String) (p : Path) : List String :=
  if p.isAbsolute then [] else directory

/-- The path to an absolute place. -/
def ofPlace (place : List String) : Path :=
  ⟨"/", place⟩

/-- The written form of an absolute place. -/
def absolute (place : List String) : String :=
  "/" ++ "/".intercalate place

end Path

end Crossref
