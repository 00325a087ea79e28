/-
The text of a document and a place in it. Line ends are line feeds and the three Unicode line ends. A byte order mark
takes no column.
-/

namespace Crossref.Yaml

structure Source where
  rest : List Char
  index : Nat := 0
  line : Nat := 0
  column : Nat := 0
  deriving Repr

def isLineEnd (c : Char) : Bool :=
  c = '\n' || c = Char.ofNat 0x85 || c = Char.ofNat 0x2028 || c = Char.ofNat 0x2029

/-- A line end, or the end of the text. -/
def endsLine : Option Char → Bool
  | none => true
  | some c => isLineEnd c

/-- A space or a line end, or the end of the text. -/
def endsSpaced : Option Char → Bool
  | none => true
  | some c => c = ' ' || isLineEnd c

/-- A space, a tab or a line end, or the end of the text. -/
def endsWord : Option Char → Bool
  | none => true
  | some c => c = ' ' || c = '\t' || isLineEnd c

def byteOrderMark : Char :=
  Char.ofNat 0xFEFF

/-- Characters that may occur in a document. -/
def isAllowed (c : Char) : Bool :=
  let n := c.toNat
  c = '\t' || c = '\n' || c = '\r' || (0x20 ≤ n && n ≤ 0x7E) || n = 0x85 || (0xA0 ≤ n && n ≤ 0xD7FF) ||
    (0xE000 ≤ n && n ≤ 0xFFFD) || 0x10000 ≤ n

namespace Source

def peek (s : Source) : Option Char :=
  s.rest.head?

/-- The character `n` places ahead. -/
def ahead (s : Source) (n : Nat) : Option Char :=
  s.rest[n]?

def atChar (s : Source) (c : Char) : Bool :=
  s.peek = some c

def advance (s : Source) : Source :=
  match s.rest with
  | [] => s
  | c :: r =>
    if isLineEnd c then ⟨r, s.index + 1, s.line + 1, 0⟩
    else ⟨r, s.index + 1, s.line, if c = byteOrderMark then s.column else s.column + 1⟩

def skip : Nat → Source → Source
  | 0, s => s
  | n + 1, s => skip n s.advance

/-- The longest run of characters of a sort, and the source behind it. -/
def takeWhile (s : Source) (p : Char → Bool) : List Char × Source :=
  let run := s.rest.takeWhile p
  (run, s.skip run.length)

def dropWhile (s : Source) (p : Char → Bool) : Source :=
  (s.takeWhile p).2

def skipSpaces (s : Source) : Source :=
  s.dropWhile (· = ' ')

/-- Skips a comment, if one begins here. -/
def skipComment (s : Source) : Source :=
  if s.atChar '#' then s.dropWhile fun c => !isLineEnd c else s

/-- Reads one line end. The first two kinds count as a line feed, the other two stay what they are. -/
def lineEnd? (s : Source) : Option (Char × Source) :=
  match s.peek with
  | some c =>
    if isLineEnd c then some (if c = Char.ofNat 0x85 then '\n' else c, s.advance) else none
  | none => none

/-- Three equal characters at the beginning of a line that separate documents stand here. -/
def atSeparator (s : Source) (c : Char) : Bool :=
  s.rest.take 3 = [c, c, c] && endsWord (s.ahead 3)

def atAnySeparator (s : Source) : Bool :=
  s.atSeparator '-' || s.atSeparator '.'

end Source

end Crossref.Yaml
