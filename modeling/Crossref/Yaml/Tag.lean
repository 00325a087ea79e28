/-
The types of nodes. A plain scalar without a tag has the type that its text looks like.
-/
import Crossref.Yaml.Token

namespace Crossref.Yaml

inductive Tag where
  | null
  | bool
  | int
  | float
  | timestamp
  | binary
  | str
  | seq
  | map
  | set
  | omap
  | pairs
  /-- The key of the mappings that a mapping takes over. -/
  | merge
  | value
  | other (name : String)
  deriving DecidableEq, Repr

/-- What the names of the common types begin with. -/
def commonLeading : String :=
  "tag:yaml.org,2002:"

def commonTags : List (String × Tag) :=
  [("null", .null), ("bool", .bool), ("int", .int), ("float", .float), ("timestamp", .timestamp), ("binary", .binary),
   ("str", .str), ("seq", .seq), ("map", .map), ("set", .set), ("omap", .omap), ("pairs", .pairs), ("merge", .merge),
   ("value", .value)]

/-- The type with a full name. -/
def Tag.ofName (name : String) : Tag :=
  ((commonTags.find? fun (short, _) => commonLeading ++ short = name).map (·.2)).getD (.other name)

/-! Texts of scalars -/

namespace Plain

def isDigitOrScore (c : Char) : Bool :=
  c.isDigit || c = '_'

def dropSign : List Char → List Char
  | '+' :: r => r
  | '-' :: r => r
  | r => r

/-- A digit, and then digits and underscores. -/
def isRun (s : List Char) : Bool :=
  s.head?.any Char.isDigit && s.all isDigitOrScore

def isTruth (s : List Char) : Bool :=
  ["yes", "Yes", "YES", "no", "No", "NO", "true", "True", "TRUE", "false", "False", "FALSE", "on", "On", "ON", "off",
    "Off", "OFF"].contains (String.ofList s)

def isNull (s : List Char) : Bool :=
  ["", "~", "null", "Null", "NULL"].contains (String.ofList s)

/-- One digit, or two of which the first is less than six. -/
def isSixtieth : List Char → Bool
  | [c] => c.isDigit
  | [c, d] => '0' ≤ c && c ≤ '5' && d.isDigit
  | _ => false

/-- The text cut at colons. -/
def atColons : List Char → List (List Char)
  | [] => [[]]
  | c :: r =>
    if c = ':' then [] :: atColons r
    else match atColons r with
      | [] => [[c]]
      | part :: parts => (c :: part) :: parts

/-- Digits, and then at least one part of sixtieths. -/
def isSexagesimal (s : List Char) : Bool :=
  match atColons s with
  | first :: part :: parts => isRun first && (part :: parts).all isSixtieth
  | _ => false

def isWholeBody : List Char → Bool
  | '0' :: 'b' :: r => !r.isEmpty && r.all fun c => c = '0' || c = '1' || c = '_'
  | '0' :: 'x' :: r => !r.isEmpty && r.all fun c => c.isDigit || ('a' ≤ c && c ≤ 'f') || ('A' ≤ c && c ≤ 'F') || c = '_'
  | '0' :: r => r.all fun c => ('0' ≤ c && c ≤ '7') || c = '_'
  | s => isRun s || isSexagesimal s

def isWhole (s : List Char) : Bool :=
  isWholeBody (dropSign s)

/-- Nothing, or an exponent with its sign. -/
def isExponent : List Char → Bool
  | [] => true
  | e :: sign :: digits =>
    (e = 'e' || e = 'E') && (sign = '+' || sign = '-') && !digits.isEmpty && digits.all Char.isDigit
  | _ => false

/-- Digits and underscores, and then nothing or an exponent. -/
def isFraction (s : List Char) : Bool :=
  isExponent (s.dropWhile isDigitOrScore)

def isInfinity (s : List Char) : Bool :=
  [".inf", ".Inf", ".INF"].contains (String.ofList s)

def isFloat (s : List Char) : Bool :=
  let body := dropSign s
  let whole := body.takeWhile (· ≠ '.')
  match body.dropWhile (· ≠ '.') with
  | '.' :: fraction =>
    (isRun whole && isFraction fraction) ||
      (isSexagesimal whole && fraction.all isDigitOrScore) ||
      (s.head? = some '.' && fraction.head?.any Char.isDigit && isFraction fraction) ||
      isInfinity body || [".nan", ".NaN", ".NAN"].contains (String.ofList s)
  | _ => false

end Plain

/-! Dates -/

/-- A date with an optional time of day. -/
structure Moment where
  year : Nat
  month : Nat
  day : Nat
  time : Option (Nat × Nat × Nat) := none
  /-- Whether month and day have two digits each. -/
  padded : Bool
  deriving DecidableEq, Repr

namespace Moment

/-- Between `least` and `most` digits. -/
def number? (least most : Nat) (s : List Char) : Option (Nat × Nat × List Char) :=
  let run := (s.take most).takeWhile Char.isDigit
  if run.length < least then none
  else some (run.foldl (fun n c => 10 * n + (c.toNat - 48)) 0, run.length, s.drop run.length)

def literal? (c : Char) : List Char → Option (List Char)
  | d :: r => if d = c then some r else none
  | [] => none

/-- A zone: the letter for the standard one, or an offset. -/
def isZone (s : List Char) : Bool :=
  match s.dropWhile fun c => c = ' ' || c = '\t' with
  | [] => s.isEmpty
  | ['Z'] => true
  | sign :: r =>
    (sign = '+' || sign = '-') &&
      match number? 1 2 r with
      | none => false
      | some (_, _, []) => true
      | some (_, _, r) => ((literal? ':' r).bind (number? 2 2)).any fun (_, _, rest) => rest.isEmpty

/-- A fraction of a second and a zone, both optional. -/
def isTimeRest : List Char → Bool
  | '.' :: r => isZone (r.dropWhile Char.isDigit)
  | s => isZone s

/-- The time of day, behind its mark. -/
def time? (s : List Char) : Option (Nat × Nat × Nat) := do
  let (hour, _, s) ← number? 1 2 s
  let (minute, _, s) ← (literal? ':' s).bind (number? 2 2)
  let (second, _, s) ← (literal? ':' s).bind (number? 2 2)
  if isTimeRest s then some (hour, minute, second) else none

/-- What stands between a date and a time: a letter, or blanks. -/
def timeMark? : List Char → Option (List Char)
  | c :: r =>
    if c = 'T' || c = 't' then some r
    else if c = ' ' || c = '\t' then some (r.dropWhile fun c => c = ' ' || c = '\t')
    else none
  | [] => none

def ofChars? (s : List Char) : Option Moment := do
  let (year, _, s) ← number? 4 4 s
  let (month, m, s) ← (literal? '-' s).bind (number? 1 2)
  let (day, d, s) ← (literal? '-' s).bind (number? 1 2)
  let padded := m = 2 && d = 2
  if s.isEmpty then some ⟨year, month, day, none, padded⟩
  else
    let time ← (timeMark? s).bind time?
    some ⟨year, month, day, some time, padded⟩

def isLeapYear (year : Nat) : Bool :=
  year % 4 = 0 && (year % 100 ≠ 0 || year % 400 = 0)

def daysInMonth (year month : Nat) : Nat :=
  if month = 2 then if isLeapYear year then 29 else 28
  else if [4, 6, 9, 11].contains month then 30
  else 31

/-- What is wrong with a moment that no calendar or clock shows. -/
def problem? (m : Moment) : Option String :=
  if m.year = 0 then some s!"year {m.year} is out of range"
  else if m.month = 0 || 12 < m.month then some "month must be in 1..12"
  else if m.day = 0 || daysInMonth m.year m.month < m.day then some "day is out of range for month"
  else match m.time with
    | none => none
    | some (hour, minute, second) =>
      if 23 < hour then some "hour must be in 0..23"
      else if 59 < minute then some "minute must be in 0..59"
      else if 59 < second then some "second must be in 0..59"
      else none

end Moment

/-- A text that is a date by itself; without a time, month and day need two digits. -/
def Plain.isMoment (s : List Char) : Bool :=
  (Moment.ofChars? s).any fun m => m.time.isSome || m.padded

/-- The type of a plain scalar. -/
def Tag.ofPlain (s : List Char) : Tag :=
  if Plain.isTruth s then .bool
  else if Plain.isFloat s then .float
  else if Plain.isWhole s then .int
  else if s = ['<', '<'] then .merge
  else if Plain.isNull s then .null
  else if Plain.isMoment s then .timestamp
  else if s = ['='] then .value
  else .str

end Crossref.Yaml
