/-
Quoted scalars. Inside them a line end counts as a space, and each empty line after it as a line feed; blanks around
line ends do not count. In single quotes only the quote itself is written twice; in double quotes a backslash begins
an escape.
-/
import Crossref.Yaml.Directive

namespace Crossref.Yaml

/-- Escapes of one character. -/
def escapes : List (Char × Nat) :=
  [('0', 0), ('a', 7), ('b', 8), ('t', 9), ('\t', 9), ('n', 10), ('v', 11), ('f', 12), ('r', 13), ('e', 0x1B),
   (' ', 0x20), ('"', 0x22), ('\\', 0x5C), ('/', 0x2F), ('N', 0x85), ('_', 0xA0), ('L', 0x2028), ('P', 0x2029)]

/-- Escapes that are followed by the code of a character, with the number of its digits. -/
def codeEscapes : List (Char × Nat) :=
  [('x', 2), ('u', 4), ('U', 8)]

/-- The character with a code; a code that stands for no character gives the replacement character. -/
def charOfCode (code : Nat) : Except Fault Char :=
  if 0x7FFFFFFF < code then .error .codeRange
  else if 0x10FFFF < code then .error .codePoint
  else .ok (if 0xD800 ≤ code && code ≤ 0xDFFF then Char.ofNat 0xFFFD else Char.ofNat code)

/-- Reads the digits of a code. -/
def readCode (size : Nat) : Reader Char := fun s => do
  let digits := s.rest.take size
  if digits.length < size || !digits.all isHexDigit then .error .lexical
  else
    let c ← charOfCode (natOfHex digits)
    pure (c, s.skip size)

def isGap (c : Char) : Bool :=
  c = ' ' || c = '\t'

/-- Line ends with the blanks before them; a line that separates documents may not begin here. -/
def quotedBreaks : Nat → Source → Except Fault (List Char × Source)
  | 0, s => .ok ([], s)
  | fuel + 1, s =>
    if s.atAnySeparator then .error .lexical
    else
      let s := s.dropWhile isGap
      match s.lineEnd? with
      | none => .ok ([], s)
      | some (c, s) => do
        let (rest, s) ← quotedBreaks fuel s
        pure (c :: rest, s)

/-- What a line end with the empty lines after it stands for. -/
def foldBreaks (first : Char) (rest : List Char) : List Char :=
  if first ≠ '\n' then first :: rest else if rest.isEmpty then [' '] else rest

/-- Blanks and line ends inside quotes. -/
def readGap : Reader (List Char) := fun s =>
  let (gap, s) := s.takeWhile isGap
  if s.peek.isNone then .error .lexical
  else match s.lineEnd? with
    | none => .ok (gap, s)
    | some (c, s) => do
      let (rest, s) ← quotedBreaks (s.rest.length + 1) s
      pure (foldBreaks c rest, s)

/-- An escape, behind its backslash. -/
def readEscape : Reader (List Char) := fun s =>
  match s.peek with
  | none => .error .lexical
  | some c =>
    match escapes.lookup c, codeEscapes.lookup c, s.lineEnd? with
    | some code, _, _ => .ok ([Char.ofNat code], s.advance)
    | none, some size, _ => do
      let (c, s) ← readCode size s.advance
      pure ([c], s)
    | none, none, some (_, s) => quotedBreaks (s.rest.length + 1) s
    | none, none, none => .error .lexical

/-- The next piece of a quoted text; `none` at the closing quote. -/
def quotedPiece (double : Bool) (s : Source) : Except Fault (Option (List Char × Source)) :=
  match s.peek with
  | none => .error .lexical
  | some c =>
    if c = ' ' || c = '\t' || isLineEnd c then (readGap s).map some
    else if double then
      if c = '"' then .ok none
      else if c = '\\' then (readEscape s.advance).map some
      else .ok (some ([c], s.advance))
    else if c ≠ '\'' then .ok (some ([c], s.advance))
    else if s.ahead 1 = some '\'' then .ok (some (['\''], s.skip 2))
    else .ok none

def quotedText (double : Bool) : Nat → Source → Except Fault (List Char × Source)
  | 0, _ => .error .lexical
  | fuel + 1, s => do
    match ← quotedPiece double s with
    | none => pure ([], s.advance)
    | some (piece, s) =>
      let (rest, s) ← quotedText double fuel s
      pure (piece ++ rest, s)

/-- A quoted scalar, from its opening quote on. -/
def readQuoted (double : Bool) : Reader String := fun s => do
  let (text, s) ← quotedText double (s.rest.length + 1) s.advance
  pure (String.ofList text, s)

end Crossref.Yaml
