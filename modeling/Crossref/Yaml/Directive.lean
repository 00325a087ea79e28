/-
Reading directives, tags and the names of anchors and aliases.
-/
import Crossref.Text.Utf8
import Crossref.Yaml.Source
import Crossref.Yaml.Token

namespace Crossref.Yaml

/-- A reader of one piece of a document. -/
abbrev Reader (α : Type) := Source → Except Fault (α × Source)

def isNameChar (c : Char) : Bool :=
  c.isAlphanum || c = '-' || c = '_'

def isUriChar (c : Char) : Bool :=
  c.isAlphanum || "-;/?:@&=+$,_.!~*'()[]".toList.contains c

def isHexDigit (c : Char) : Bool :=
  c.isDigit || ('a' ≤ c && c ≤ 'f') || ('A' ≤ c && c ≤ 'F')

def hexValue (c : Char) : Nat :=
  if c.isDigit then c.toNat - 48 else if 'a' ≤ c then c.toNat - 87 else c.toNat - 55

def natOfHex (digits : List Char) : Nat :=
  digits.foldl (fun n c => 16 * n + hexValue c) 0

/-! Names -/

/-- What may stand behind the name of an anchor or an alias. -/
def endsAnchor (c : Option Char) : Bool :=
  endsWord c || c.any ("?:,]\x7d%@\x60".toList.contains ·)

/-- The name of an anchor or an alias, behind its mark. -/
def readAnchorName : Reader String := fun s =>
  let (name, s) := s.advance.takeWhile isNameChar
  if name.isEmpty || !endsAnchor s.peek then .error .lexical else .ok (String.ofList name, s)

/-! Tags -/

/-- Bytes written as percent signs with two digits each. -/
def escapedBytes : Nat → Source → Except Fault (Text.Bytes × Source)
  | 0, s => .ok ([], s)
  | fuel + 1, s =>
    if !s.atChar '%' then .ok ([], s)
    else match s.ahead 1, s.ahead 2 with
      | some a, some b =>
        if isHexDigit a && isHexDigit b then do
          let (bytes, s) ← escapedBytes fuel (s.skip 3)
          pure (UInt8.ofNat (natOfHex [a, b]) :: bytes, s)
        else .error .lexical
      | _, _ => .error .lexical

def readEscapes : Reader (List Char) := fun s => do
  let (bytes, s) ← escapedBytes s.rest.length s
  match Text.decodeUtf8 bytes with
  | .ok chars => pure (chars, s)
  | .error _ => .error .lexical

/-- The pieces of an address; runs of escaped bytes stand between the others. -/
def uriPieces : Nat → Source → Except Fault (List Char × Source)
  | 0, s => .ok ([], s)
  | fuel + 1, s => do
    let (run, s) := s.takeWhile isUriChar
    if s.atChar '%' then
      let (escaped, s) ← readEscapes s
      let (rest, s) ← uriPieces fuel s
      pure (run ++ escaped ++ rest, s)
    else pure (run, s)

def readUri : Reader String := fun s => do
  if !(s.peek.any fun c => isUriChar c || c = '%') then .error .lexical
  else
    let (chars, s) ← uriPieces (s.rest.length + 1) s
    pure (String.ofList chars, s)

/-- A handle: one exclamation mark, or a name between two. -/
def readHandle : Reader String := fun s =>
  if !s.atChar '!' then .error .lexical
  else if s.ahead 1 = some ' ' then .ok ("!", s.advance)
  else
    let (name, s) := s.advance.takeWhile isNameChar
    if s.atChar '!' then .ok ("!" ++ String.ofList name ++ "!", s.advance) else .error .lexical

/-- A tag in angle brackets is an address. -/
def readVerbatimTag : Reader TagName := fun s => do
  let (suffix, s) ← readUri (s.skip 2)
  if s.atChar '>' then pure (⟨none, suffix⟩, s.advance) else .error .lexical

/-- The word that begins here has an exclamation mark behind its first character. -/
def hasSecondMark (s : Source) : Bool :=
  ((s.rest.drop 1).takeWhile fun c => !endsSpaced (some c)).contains '!'

def readShortTag : Reader TagName := fun s => do
  let (handle, s) ← if hasSecondMark s then readHandle s else pure ("!", s.advance)
  let (suffix, s) ← readUri s
  pure (⟨some handle, suffix⟩, s)

def readTag : Reader TagName := fun s => do
  let (tag, s) ←
    if s.ahead 1 = some '<' then readVerbatimTag s
    else if endsWord (s.ahead 1) then pure (⟨none, "!"⟩, s.advance)
    else readShortTag s
  if endsSpaced s.peek then pure (tag, s) else .error .lexical

/-! Directives -/

/-- The rest of a line on which nothing but a comment may follow. -/
def readLineRest : Reader PUnit := fun s =>
  let s := s.skipSpaces.skipComment
  if endsLine s.peek then .ok ((), ((s.lineEnd?).map (·.2)).getD s) else .error .lexical

def readNat : Reader Nat := fun s =>
  let (digits, s) := s.takeWhile Char.isDigit
  if digits.isEmpty then .error .lexical
  else .ok (digits.foldl (fun n c => 10 * n + (c.toNat - 48)) 0, s)

def readVersion : Reader Directive := fun s => do
  let (major, s) ← readNat s.skipSpaces
  if !s.atChar '.' then .error .lexical
  else
    let (_, s) ← readNat s.advance
    if endsSpaced s.peek then pure (.version major, s) else .error .lexical

def readTagDirective : Reader Directive := fun s => do
  let (handle, s) ← readHandle s.skipSpaces
  if !s.atChar ' ' then .error .lexical
  else
    let (leading, s) ← readUri s.skipSpaces
    if endsSpaced s.peek then pure (.tag handle leading, s) else .error .lexical

def readDirective : Reader Directive := fun s => do
  let (name, s) := s.advance.takeWhile isNameChar
  if name.isEmpty || !endsSpaced s.peek then .error .lexical
  else
    let (directive, s) ←
      match String.ofList name with
      | "YAML" => readVersion s
      | "TAG" => readTagDirective s
      | _ => pure (.unknown, s.dropWhile fun c => !isLineEnd c)
    let (_, s) ← readLineRest s
    pure (directive, s)

end Crossref.Yaml
