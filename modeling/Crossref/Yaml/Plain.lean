/-
Plain scalars, which stand without quotes. They end at a colon before a blank, at a comment, at an indicator of a flow
collection if they are inside one, or where a line is indented too little.
-/
import Crossref.Yaml.Quoted

namespace Crossref.Yaml

/-- The colon here ends a plain scalar. -/
def endsPlain (inFlow : Bool) (next : Option Char) : Bool :=
  endsWord next || (inFlow && next.any (",[]\x7b\x7d".toList.contains ·))

/-- The length of the word of a plain scalar that begins here. -/
def plainLength (inFlow : Bool) : List Char → Nat
  | [] => 0
  | c :: r =>
    if endsWord (some c) || (c = ':' && endsPlain inFlow r.head?) || (inFlow && ",?[]\x7b\x7d".toList.contains c) then 0
    else plainLength inFlow r + 1

/-- What stands between two words of a plain scalar. -/
structure PlainGap where
  /-- What it stands for; nothing ends the scalar. -/
  text : List Char := []
  /-- Whether a line ended. -/
  broken : Bool := false
  after : Source

/-- Line ends with spaces between them, up to a line that separates documents; `none` in front of such a line. -/
def plainBreaks : Nat → Source → Option (List Char) × Source
  | 0, s => (some [], s)
  | fuel + 1, s =>
    if s.atAnySeparator then (none, s)
    else
      let s := s.skipSpaces
      match s.lineEnd? with
      | none => (some [], s)
      | some (c, s) =>
        let (rest, s) := plainBreaks fuel s
        (rest.map (c :: ·), s)

def plainGap (s : Source) : PlainGap :=
  let (spaces, s) := s.takeWhile (· = ' ')
  match s.lineEnd? with
  | none => { text := spaces, after := s }
  | some (c, s) =>
    let (breaks, s) := plainBreaks (s.rest.length + 1) s
    { text := (breaks.map (foldBreaks c)).getD [], broken := true, after := s }

/-- The words of a plain scalar, each with the gap before it, and whether a line ended behind the last one. -/
def plainWords (inFlow : Bool) (indent : Int) : Nat → (gap : PlainGap) → List Char × Bool × Source
  | 0, gap => ([], gap.broken, gap.after)
  | fuel + 1, gap =>
    let s := gap.after
    let n := plainLength inFlow s.rest
    if s.atChar '#' || n = 0 then ([], gap.broken, s)
    else
      let word := gap.text ++ s.rest.take n
      let next := plainGap (s.skip n)
      if next.text.isEmpty || next.after.atChar '#' || (!inFlow && next.after.column < indent) then
        (word, next.broken, next.after)
      else
        let (rest, broken, s) := plainWords inFlow indent fuel next
        (word ++ rest, broken, s)

/-- A plain scalar inside lines that are indented by `outer`, and whether a line ended behind it. -/
def readPlain (inFlow : Bool) (outer : Int) (s : Source) : String × Bool × Source :=
  let (text, broken, s) := plainWords inFlow (outer + 1) (s.rest.length + 1) { after := s }
  (String.ofList text, broken, s)

end Crossref.Yaml
