/-
Files that assign values to variables, one on a line. A value may stand in quotes; without them it ends at a comment
or at the end of the line. A line that cannot be read is passed over. Names in braces behind a dollar sign stand for
the values of other variables, those of the file before those around it.
-/
import Crossref.Config.Placeholder
import Crossref.Text.Blank

namespace Crossref.Config

open Text (isBlank)

/-- A name with its value; a name alone has none. -/
structure Assignment where
  name : String
  value : Option String
  deriving DecidableEq, Repr

namespace Assignment

def isGap (c : Char) : Bool :=
  isBlank c && c ≠ '\n' && c ≠ '\r'

def isEnd (c : Char) : Bool :=
  c = '\n' || c = '\r'

/-- What is left of a text behind a part of it, together with what the part says. -/
abbrev Part (α : Type) := Option (α × List Char)

/-! Names -/

def exportWord : List Char :=
  "export".toList

/-- Skips the word that marks a variable for other programs. -/
def skipExport (s : List Char) : List Char :=
  let rest := s.drop exportWord.length
  if s.take exportWord.length = exportWord && rest.head?.any isGap then rest.dropWhile isGap else s

/-- A name without quotes. -/
def bareName? (s : List Char) : Part (List Char) :=
  let stops (c : Char) := c = '=' || c = '#' || isBlank c
  match s.takeWhile fun c => !stops c with
  | [] => none
  | name => some (name, s.dropWhile fun c => !stops c)

/-- A name in single quotes. -/
def quotedName? (s : List Char) : Part (List Char) :=
  match s.takeWhile (· ≠ '\''), s.dropWhile (· ≠ '\'') with
  | c :: name, '\'' :: rest => some (c :: name, rest)
  | _, _ => none

/-- The name that a line begins with; a comment has none. -/
def name? : List Char → Part (Option (List Char))
  | '#' :: r => some (none, '#' :: r)
  | '\'' :: r => (quotedName? r).map fun (name, rest) => (some name, rest)
  | s => (bareName? s).map fun (name, rest) => (some name, rest)

/-! Values -/

/-- The text up to the closing quote, behind the opening one. A quote behind a backslash closes only if no other does.
-/
def untilQuote (quote : Char) : List Char → Part (List Char)
  | [] => none
  | '\\' :: c :: r =>
    if c = quote then
      match untilQuote quote r with
      | some (text, rest) => some ('\\' :: c :: text, rest)
      | none => some (['\\'], r)
    else (untilQuote quote (c :: r)).map fun (text, rest) => ('\\' :: text, rest)
  | c :: r =>
    if c = quote then some ([], r) else (untilQuote quote r).map fun (text, rest) => (c :: text, rest)

def singleEscapes : List (Char × Char) :=
  [('\\', '\\'), ('\'', '\'')]

def doubleEscapes : List (Char × Char) :=
  singleEscapes ++ [('"', '"'), ('a', '\x07'), ('b', '\x08'), ('f', '\x0c'), ('n', '\n'), ('r', '\r'), ('t', '\t'),
    ('v', '\x0b')]

/-- Puts characters in the place of their escapes. -/
def unescape (table : List (Char × Char)) : List Char → List Char
  | '\\' :: c :: r =>
    match table.lookup c with
    | some d => d :: unescape table r
    | none => '\\' :: unescape table (c :: r)
  | c :: r => c :: unescape table r
  | [] => []

/-- Cuts a comment off; a blank has to stand before it. -/
def cutComment : List Char → List Char
  | [] => []
  | c :: r => if isBlank c && (r.dropWhile isBlank).head? = some '#' then [] else c :: cutComment r

def bareValue (s : List Char) : List Char × List Char :=
  (Text.trimEnd (cutComment (s.takeWhile fun c => !isEnd c)), s.dropWhile fun c => !isEnd c)

def value? : List Char → Part (List Char)
  | '\'' :: r => (untilQuote '\'' r).map fun (text, rest) => (unescape singleEscapes text, rest)
  | '"' :: r => (untilQuote '"' r).map fun (text, rest) => (unescape doubleEscapes text, rest)
  | s => some (bareValue s)

/-! Lines -/

/-- Skips a comment, with the blanks before it. -/
def skipComment (s : List Char) : List Char :=
  let rest := s.dropWhile isGap
  if rest.head? = some '#' then rest.dropWhile fun c => !isEnd c else s

/-- Behind blanks a line ends here. -/
def endLine? (s : List Char) : Option (List Char) :=
  match s.dropWhile isGap with
  | [] => some []
  | '\r' :: '\n' :: r => some r
  | c :: r => if isEnd c then some r else none

/-- What is left behind the present line. -/
def nextLine (s : List Char) : List Char :=
  match s.dropWhile fun c => !isEnd c with
  | [] => []
  | _ :: r => r

/-- An equals sign with a value, or nothing. -/
def assigned? (s : List Char) : Part (Option (List Char)) :=
  match s.dropWhile isGap with
  | '=' :: r => (value? (r.dropWhile isGap)).map fun (v, rest) => (some v, rest)
  | rest => some (none, rest)

/-- Where reading a line fails, the rest of it is passed over. -/
inductive Line where
  | assignment (name : Option (List Char)) (value : Option (List Char)) (rest : List Char)
  | unreadable (rest : List Char)

/-- Reads the line that begins here. -/
def readLine (s : List Char) : Line :=
  let s := skipExport s
  match name? s with
  | none => .unreadable (nextLine s)
  | some (name, s) =>
    match assigned? s with
    | none => .unreadable (nextLine ((s.dropWhile isGap).drop 1))
    | some (v, s) =>
      let s := skipComment s
      match endLine? s with
      | none => .unreadable (nextLine s)
      | some rest => .assignment name v rest

/-- The assignments of a text with at most `fuel` lines. -/
def readLines : Nat → List Char → List Assignment
  | 0, _ => []
  | fuel + 1, s =>
    match s.dropWhile isBlank with
    | [] => []
    | s =>
      match readLine s with
      | .unreadable rest => readLines fuel rest
      | .assignment none _ rest => readLines fuel rest
      | .assignment (some name) v rest => ⟨String.ofList name, v.map String.ofList⟩ :: readLines fuel rest

/-! References to other variables -/

/-- A reference behind its dollar sign and brace: the name, what stands for it if it is not set, and what follows. -/
def reference? (s : List Char) : Option (List Char × List Char × List Char) :=
  let name := s.takeWhile fun c => c ≠ '}' && c ≠ ':'
  match s.dropWhile fun c => c ≠ '}' && c ≠ ':' with
  | '}' :: rest => some (name, [], rest)
  | ':' :: '-' :: r =>
    match r.dropWhile (· ≠ '}') with
    | '}' :: rest => some (name, r.takeWhile (· ≠ '}'), rest)
    | _ => none
  | _ => none

/-- The text with its references filled in, up to `fuel` of its characters. -/
def fillIn (look : String → Option String) : Nat → List Char → List Char
  | 0, s => s
  | _ + 1, [] => []
  | fuel + 1, c :: r =>
    if c = '$' then
      match r with
      | '{' :: t =>
        match reference? t with
        | some (name, otherwise, rest) =>
          ((look (String.ofList name)).map String.toList).getD otherwise ++ fillIn look fuel rest
        | none => c :: fillIn look fuel r
      | _ => c :: fillIn look fuel r
    else c :: fillIn look fuel r

/-- What a name stands for inside a file; a name without a value stands for nothing. -/
def look (around : Variables) (sofar : List Assignment) (name : String) : Option String :=
  match sofar.find? (·.name = name) with
  | some a => some (a.value.getD "")
  | none => around.lookup name

/-- A name that is assigned again keeps its place. -/
def assign (sofar : List Assignment) (a : Assignment) : List Assignment :=
  if sofar.any (·.name = a.name) then sofar.map fun b => if b.name = a.name then a else b else sofar ++ [a]

def evaluate (around : Variables) (sofar : List Assignment) (a : Assignment) : List Assignment :=
  let filled := a.value.map fun v => String.ofList (fillIn (look around sofar) (v.length + 1) v.toList)
  assign sofar { a with value := filled }

/-- The assignments of a file, one for each name. -/
def ofChars (around : Variables) (text : List Char) : List Assignment :=
  (readLines (text.length + 1) text).foldl (evaluate around) []

end Assignment

end Crossref.Config
