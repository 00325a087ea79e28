/-
Reading whole numbers for settings, leniently: truth values count as one and zero, a number with a fraction counts if
the fraction is zero, and so does a text with blanks around, leading zeros, single underscores or a fraction of zeros.
-/
import Crossref.Config.Value

namespace Crossref.Config

open Text (isNumeralBlank)

/-- What is wrong with a value that should be a whole number. -/
inductive WholeProblem where
  | notANumber
  | malformed
  | tooLong
  | fraction
  | notFinite
  deriving DecidableEq, Repr

namespace Whole

def trim (s : List Char) : List Char :=
  ((s.dropWhile isNumeralBlank).reverse.dropWhile isNumeralBlank).reverse

/-- At most one sign: whether it is a minus, and what follows. -/
def sign? : List Char → Option (Bool × List Char)
  | '+' :: '-' :: _ => none
  | '-' :: '+' :: _ => none
  | '+' :: r => some (false, r)
  | '-' :: r => some (true, r)
  | r => some (false, r)

/-- Drops zeros and underscores before the first digit that is not zero; the last character stays. -/
def dropZeros : List Char → Option (List Char)
  | [] => none
  | [c] => if c.isDigit || c = '_' then some [c] else none
  | c :: d :: r =>
    if c = '0' || c = '_' then
      if d = '.' then some (c :: d :: r) else dropZeros (d :: r)
    else if c.isDigit then some (c :: d :: r)
    else none

/-- A text of digits has to begin with a digit. -/
def body? (s : List Char) : Option (List Char) :=
  match s with
  | c :: _ => if c.isDigit then dropZeros s else none
  | [] => none

/-- Drops a point and the zeros after it. -/
def dropFraction (s : List Char) : List Char :=
  match s.dropWhile (· ≠ '.') with
  | '.' :: zeros => if zeros.all (· = '0') then s.takeWhile (· ≠ '.') else s
  | _ => s

/-- Drops underscores that stand alone between other characters. -/
def dropSeparators : List Char → List Char
  | c :: '_' :: d :: r => if d = '_' then c :: '_' :: dropSeparators (d :: r) else c :: dropSeparators (d :: r)
  | c :: r => c :: dropSeparators r
  | [] => []

def digits? (s : List Char) : Option Nat :=
  if s ≠ [] && s.all Char.isDigit then some (Text.natOfPlain s) else none

/-- The sign of a numeral, and its digits as far as they count. -/
def parts? (s : List Char) : Option (Bool × List Char) := do
  let (negative, r) ← sign? (trim s)
  let b ← body? r
  pure (negative, dropSeparators (dropFraction b))

def ofChars (s : List Char) : Except WholeProblem Int :=
  match parts? s with
  | none => .error .malformed
  | some (negative, b) =>
    if Text.maxDigits < b.length then .error .tooLong
    else match digits? b with
      | none => .error .malformed
      | some n => .ok (if negative then -(n : Int) else n)

def ofText (s : String) : Except WholeProblem Int :=
  ofChars s.toList

def ofDecimal (d : Text.Decimal) : Except WholeProblem Int :=
  match d.toWhole with
  | .ok n => .ok n
  | .error .notFinite => .error .notFinite
  | .error .fraction => .error .fraction
  | .error .tooLarge => .error .tooLong

def ofValue : Value → Except WholeProblem Int
  | .scalar (.bool b) => .ok (if b then 1 else 0)
  | .scalar (.int n) => .ok n
  | .scalar (.decimal d) => ofDecimal d
  | .scalar (.text s) => ofText s
  | _ => .error .notANumber

end Whole

end Crossref.Config
