/-
Cutting a document into tokens. Indentation opens and closes block collections. A scalar, alias, anchor, tag or flow
collection may turn out to be a key when a colon follows it on the same line; the marks of the key are then put in
front of it. Until that is settled nothing from it on is given out, so that a fault met meanwhile comes first.
-/
import Crossref.Yaml.Block
import Crossref.Yaml.Plain

namespace Crossref.Yaml

/-- A token that may be a key: its number, whether it has to be one, and where it is. -/
structure PossibleKey where
  token : Nat
  required : Bool
  index : Nat
  line : Nat
  column : Nat

structure Lexer where
  source : Source
  tokens : List Token := []
  /-- How many flow collections are open. -/
  flow : Int := 0
  indent : Int := -1
  /-- The indentations around the present one, the innermost first. -/
  outer : List Int := []
  /-- Whether a token that begins here may be a key. -/
  keyAllowed : Bool := true
  /-- Possible keys by the number of flow collections around them. -/
  keys : List (Int × PossibleKey) := []
  done : Bool := false

/-- How far a key may be from its colon. -/
def keyDistance : Nat := 1024

namespace Lexer

abbrev Step := Except Fault Lexer

def inFlow (x : Lexer) : Bool :=
  x.flow ≠ 0

def push (x : Lexer) (t : Token) : Lexer :=
  { x with tokens := x.tokens ++ [t] }

def insertAt (x : Lexer) (n : Nat) (t : Token) : Lexer :=
  { x with tokens := x.tokens.take n ++ t :: x.tokens.drop n }

def skip (x : Lexer) (n : Nat) : Lexer :=
  { x with source := x.source.skip n }

/-! Possible keys -/

/-- The possible key is too far back. -/
def isStale (x : Lexer) (k : PossibleKey) : Bool :=
  k.line ≠ x.source.line || keyDistance < x.source.index - k.index

/-- Gives up possible keys that are too far back; one that has to be a key may not be given up. -/
def dropStale (x : Lexer) : Step :=
  if x.keys.any fun (_, k) => x.isStale k && k.required then .error .lexical
  else .ok { x with keys := x.keys.filter fun (_, k) => !x.isStale k }

/-- Gives up the possible key of the present flow collection. -/
def dropKey (x : Lexer) : Step :=
  match x.keys.lookup x.flow with
  | none => .ok x
  | some k => if k.required then .error .lexical else .ok { x with keys := x.keys.filter (·.1 ≠ x.flow) }

/-- Notes that the next token may be a key. -/
def noteKey (x : Lexer) : Step :=
  if !x.keyAllowed then .ok x
  else do
    let s := x.source
    let required := !x.inFlow && x.indent = s.column
    let x ← x.dropKey
    pure { x with keys := (x.flow, ⟨x.tokens.length, required, s.index, s.line, s.column⟩) :: x.keys }

/-- The number of the first token of which it is open whether it is a key. -/
def firstOpen? (x : Lexer) : Option Nat :=
  (x.keys.map fun (_, k) => k.token).min?

/-! Indentation -/

/-- Closes block collections that are indented further than a column. -/
def closeBlocks (column : Int) : List Int → Lexer → Lexer
  | [], x => x
  | i :: outer, x =>
    if x.indent ≤ column then x
    else closeBlocks column outer { x.push .blockEnd with indent := i, outer := outer }

def unwind (x : Lexer) (column : Int) : Lexer :=
  if x.inFlow then x else closeBlocks column x.outer x

/-- Opens a block collection, if the column is further in than the present indentation. -/
def openBlock (x : Lexer) (column at' : Nat) (start : Token) : Lexer :=
  if x.indent < column then
    { x.insertAt at' start with indent := column, outer := x.indent :: x.outer }
  else x

/-! One token each -/

def readWith {α : Type} (x : Lexer) (reader : Reader α) (token : α → Token) : Step := do
  let (a, s) ← reader x.source
  pure ({ x with source := s }.push (token a))

/-- Ends all block collections before a token that belongs to no document. -/
def betweenDocuments (x : Lexer) : Step := do
  let x ← (x.unwind (-1)).dropKey
  pure { x with keyAllowed := false }

def streamEnd (x : Lexer) : Step := do
  let x ← x.betweenDocuments
  pure { x.push .streamEnd with keys := [], done := true }

def directive (x : Lexer) : Step := do
  (← x.betweenDocuments).readWith readDirective .directive

def separator (x : Lexer) (t : Token) : Step := do
  pure ((← x.betweenDocuments).push t |>.skip 3)

def flowStart (x : Lexer) (t : Token) : Step := do
  let x ← x.noteKey
  pure ({ x with flow := x.flow + 1, keyAllowed := true }.push t |>.skip 1)

def flowEnd (x : Lexer) (t : Token) : Step := do
  let x ← x.dropKey
  pure ({ x with flow := x.flow - 1, keyAllowed := false }.push t |>.skip 1)

def flowEntry (x : Lexer) : Step := do
  let x ← { x with keyAllowed := true }.dropKey
  pure (x.push .flowEntry |>.skip 1)

def entry (x : Lexer) : Step := do
  if !x.inFlow && !x.keyAllowed then .error .lexical
  else
    let x := if x.inFlow then x else x.openBlock x.source.column x.tokens.length .blockSequenceStart
    let x ← { x with keyAllowed := true }.dropKey
    pure (x.push .entry |>.skip 1)

def key (x : Lexer) : Step := do
  if !x.inFlow && !x.keyAllowed then .error .lexical
  else
    let x := if x.inFlow then x else x.openBlock x.source.column x.tokens.length .blockMappingStart
    let x ← { x with keyAllowed := !x.inFlow }.dropKey
    pure (x.push .key |>.skip 1)

/-- A colon behind a possible key makes it one. -/
def settleKey (x : Lexer) (k : PossibleKey) : Lexer :=
  let x := { x with keys := x.keys.filter (·.1 ≠ x.flow) }.insertAt k.token .key
  let x := if x.inFlow then x else x.openBlock k.column k.token .blockMappingStart
  { x with keyAllowed := false }

/-- A colon behind nothing belongs to an empty key. -/
def bareValue (x : Lexer) : Step :=
  if !x.inFlow && !x.keyAllowed then .error .lexical
  else
    let x := if x.inFlow then x else x.openBlock x.source.column x.tokens.length .blockMappingStart
    { x with keyAllowed := !x.inFlow }.dropKey

def value (x : Lexer) : Step := do
  let x ← match x.keys.lookup x.flow with
    | some k => pure (x.settleKey k)
    | none => x.bareValue
  pure (x.push .value |>.skip 1)

/-- A token that may be a key and behind which none may begin. -/
def word {α : Type} (x : Lexer) (reader : Reader α) (token : α → Token) : Step := do
  let x ← x.noteKey
  { x with keyAllowed := false }.readWith reader token

def block (x : Lexer) (folded : Bool) : Step := do
  let x ← { x with keyAllowed := true }.dropKey
  x.readWith (readBlock folded x.indent) (.scalar false)

def plain (x : Lexer) : Step := do
  let x ← x.noteKey
  let (text, broken, s) := readPlain x.inFlow x.indent x.source
  pure ({ x with source := s, keyAllowed := broken }.push (.scalar true text))

/-! The next token -/

/-- Skips spaces, comments and line ends; behind a line end a key may begin, outside flow collections. -/
def skipGap : Nat → Lexer → Lexer
  | 0, x => x
  | fuel + 1, x =>
    let s := x.source.skipSpaces.skipComment
    match s.lineEnd? with
    | none => { x with source := s }
    | some (_, s) => skipGap fuel { x with source := s, keyAllowed := x.keyAllowed || !x.inFlow }

/-- Skips a byte order mark at the beginning. -/
def skipMark (x : Lexer) : Lexer :=
  if x.source.index = 0 && x.source.atChar byteOrderMark then x.skip 1 else x

def startsPlain (x : Lexer) (c : Char) : Bool :=
  !(endsWord (some c) || "-?:,[]\x7b\x7d#&*!|>'\"%@\x60".toList.contains c) ||
    (!endsWord (x.source.ahead 1) && (c = '-' || (!x.inFlow && (c = '?' || c = ':'))))

/-- Reads the token that begins with a character. -/
def tokenAt (x : Lexer) (c : Char) : Step :=
  let s := x.source
  let spaced := endsWord (s.ahead 1)
  if c = '%' && s.column = 0 then x.directive
  else if s.column = 0 && s.atSeparator '-' then x.separator .documentStart
  else if s.column = 0 && s.atSeparator '.' then x.separator .documentEnd
  else if c = '[' then x.flowStart .flowSequenceStart
  else if c = '{' then x.flowStart .flowMappingStart
  else if c = ']' then x.flowEnd .flowSequenceEnd
  else if c = '}' then x.flowEnd .flowMappingEnd
  else if c = ',' then x.flowEntry
  else if c = '-' && spaced then x.entry
  else if c = '?' && (x.inFlow || spaced) then x.key
  else if c = ':' && (x.inFlow || spaced) then x.value
  else if c = '*' then x.word readAnchorName .reference
  else if c = '&' then x.word readAnchorName .anchor
  else if c = '!' then x.word readTag .tag
  else if c = '|' && !x.inFlow then x.block false
  else if c = '>' && !x.inFlow then x.block true
  else if c = '\'' then x.word (readQuoted false) (.scalar false)
  else if c = '"' then x.word (readQuoted true) (.scalar false)
  else if x.startsPlain c then x.plain
  else .error .lexical

/-- Reads the next token, with the block ends before it. -/
def next (x : Lexer) : Step := do
  let x ← (skipGap (x.source.rest.length + 1) x.skipMark).dropStale
  let x := x.unwind x.source.column
  match x.source.peek with
  | none => x.streamEnd
  | some c => x.tokenAt c

end Lexer

/-- Tokens, and the fault that ended them early. -/
structure TokenList where
  tokens : List Token
  fault : Option Fault
  deriving DecidableEq, Repr

/-- The tokens given out before a fault. -/
def Lexer.giveOut (x : Lexer) (fault : Fault) : TokenList :=
  let settled := match x.dropStale with
    | .ok x => x
    | .error _ => x
  ⟨x.tokens.take ((settled.firstOpen?).getD x.tokens.length), some fault⟩

/-- Reads tokens until the end or a fault. -/
def Lexer.run : Nat → Lexer → TokenList
  | 0, x => ⟨x.tokens, none⟩
  | fuel + 1, x =>
    if x.done then ⟨x.tokens, none⟩
    else match x.next with
      | .error fault => x.giveOut fault
      | .ok x => Lexer.run fuel x

def TokenList.ofChars (text : List Char) : TokenList :=
  if text.all isAllowed then Lexer.run (text.length + 2) { source := { rest := text } }
  else ⟨[], some .character⟩

end Crossref.Yaml
