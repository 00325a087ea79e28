/-
Block scalars: the lines below a header that are indented at least as far as the first of them. A literal scalar keeps
its line ends; a folded one turns single line ends between two lines of text into spaces. What stays of the line ends
after the last line is said by the header.
-/
import Crossref.Yaml.Quoted

namespace Crossref.Yaml

/-- What is kept of the line ends after the last line. -/
inductive Chomping where
  | strip
  | clip
  | keep
  deriving DecidableEq, Repr

structure BlockHeader where
  chomping : Chomping := .clip
  /-- How far the lines are indented below the surrounding ones. -/
  increment : Option Nat := none

def readChomping (s : Source) : Option Chomping × Source :=
  match s.peek with
  | some '+' => (some .keep, s.advance)
  | some '-' => (some .strip, s.advance)
  | _ => (none, s)

/-- An increment is one digit, but not zero. -/
def readIncrement : Reader (Option Nat) := fun s =>
  match s.peek with
  | some c =>
    if c.isDigit then
      if c = '0' then .error .lexical else .ok (some (c.toNat - 48), s.advance)
    else .ok (none, s)
  | none => .ok (none, s)

/-- Chomping and increment stand in either order. -/
def readHeader : Reader BlockHeader := fun s => do
  let (before, s) := readChomping s
  let (increment, s) ← readIncrement s
  let (after, s) := if before.isNone && increment.isSome then readChomping s else (none, s)
  if endsSpaced s.peek then pure (⟨((before <|> after).getD .clip), increment⟩, s) else .error .lexical

/-- Skips spaces up to a column. -/
def skipIndent (indent : Nat) (s : Source) : Source :=
  s.skip (min (indent - s.column) (s.rest.takeWhile (· = ' ')).length)

/-- Empty lines, with their indentation up to a column. -/
def blockBreaks (indent : Nat) : Nat → Source → List Char × Source
  | 0, s => ([], s)
  | fuel + 1, s =>
    let s := skipIndent indent s
    match s.lineEnd? with
    | none => ([], s)
    | some (c, s) =>
      let (rest, s) := blockBreaks indent fuel s
      (c :: rest, s)

/-- Empty lines before the first line of text, and the widest indentation of all of them. -/
def leadingBreaks : Nat → Source → List Char × Nat × Source
  | 0, s => ([], 0, s)
  | fuel + 1, s =>
    let column := if s.atChar ' ' then s.skipSpaces.column else 0
    let s := s.skipSpaces
    match s.lineEnd? with
    | none => ([], column, s)
    | some (c, s) =>
      let (rest, widest, s) := leadingBreaks fuel s
      (c :: rest, max column widest, s)

/-- What a line end between two lines of a block scalar stands for. -/
def joinLines (folded : Bool) (lineEnd : List Char) (breaks : List Char) (first next : Option Char) : List Char :=
  if folded && lineEnd = ['\n'] && !first.any isGap && !next.any isGap then
    if breaks.isEmpty then [' '] else []
  else lineEnd

/-- The end of a block scalar: its last line end, and the empty lines after it. -/
def chomp (chomping : Chomping) (lineEnd breaks : List Char) : List Char :=
  match chomping with
  | .strip => []
  | .clip => lineEnd
  | .keep => lineEnd ++ breaks

/-- The lines of a block scalar; `breaks` are the empty lines before the next of them. -/
def blockLines (folded : Bool) (chomping : Chomping) (indent : Nat) :
    Nat → (lineEnd breaks : List Char) → Source → List Char × Source
  | 0, _, _, s => ([], s)
  | fuel + 1, lineEnd, breaks, s =>
    if s.column ≠ indent || s.peek.isNone then (chomp chomping lineEnd breaks, s)
    else
      let (text, after) := s.takeWhile fun c => !isLineEnd c
      let (lineEnd, after) := match after.lineEnd? with
        | some (c, after) => ([c], after)
        | none => ([], after)
      let (next, after) := blockBreaks indent (after.rest.length + 1) after
      let joint :=
        if after.column = indent && after.peek.isSome then joinLines folded lineEnd next s.peek after.peek else []
      let (rest, last) := blockLines folded chomping indent fuel lineEnd next after
      (breaks ++ text ++ joint ++ rest, last)

/-- A block scalar inside lines that are indented by `outer`. -/
def readBlock (folded : Bool) (outer : Int) : Reader String := fun s => do
  let (header, s) ← readHeader s.advance
  let (_, s) ← readLineRest s
  let least := max 1 (outer + 1).toNat
  let fuel := s.rest.length + 1
  match header.increment with
  | none =>
    let (breaks, widest, s) := leadingBreaks fuel s
    let (text, s) := blockLines folded header.chomping (max least widest) fuel [] breaks s
    pure (String.ofList text, s)
  | some increment =>
    let indent := least + increment - 1
    let (breaks, s) := blockBreaks indent fuel s
    let (text, s) := blockLines folded header.chomping indent fuel [] breaks s
    pure (String.ofList text, s)

end Crossref.Yaml
