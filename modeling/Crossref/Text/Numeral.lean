/-
Whole numbers as text: blanks around, one sign, decimal digits of any script with single underscores between them. The
number of digits is limited, so that reading one never takes long.
-/
import Crossref.Text.Blank
import Crossref.Text.Digit
import Crossref.Text.Quoted

namespace Crossref.Text

inductive NumeralError where
  | malformed (text : String)
  | tooLong (digits : Nat)
  deriving DecidableEq, Repr

def maxDigits : Nat := 4300

/-- A malformed numeral is shown quoted, cut after 200 characters. -/
def NumeralError.message : NumeralError → String
  | .malformed text =>
    "invalid literal for int() with base 10: " ++ String.ofList ((quoted text).toList.take 200)
  | .tooLong digits =>
    s!"Exceeds the limit ({maxDigits} digits) for integer string conversion: value has {digits} digits; " ++
      "use sys.set_int_max_str_digits() to increase the limit"

/-- The blanks allowed around a numeral: the information separators are not among them. -/
def isNumeralBlank (c : Char) : Bool :=
  isBlank c && !(28 ≤ c.toNat && c.toNat ≤ 31)

def natOfDigits (digits : List Nat) : Nat :=
  digits.foldl (fun n d => 10 * n + d) 0

/-- The digits of a run of decimal digits with single underscores between them, and what follows the run. `none` if
an underscore stands at either end of the run or beside another. -/
def digitRun : List Char → Option (List Nat × List Char)
  | [] => some ([], [])
  | c :: r =>
    match digitValue? c with
    | none => if c = '_' then none else some ([], c :: r)
    | some d =>
      match r with
      | '_' :: e :: s =>
        if isDecimal e then (digitRun (e :: s)).map fun (ds, rest) => (d :: ds, rest) else none
      | ['_'] => none
      | r => (digitRun r).map fun (ds, rest) => (d :: ds, rest)

def signOf : List Char → Int × List Char
  | '-' :: r => (-1, r)
  | '+' :: r => (1, r)
  | r => (1, r)

/-- Reads a whole number. The length of its digits is looked at before what follows them. -/
def readInt (text : List Char) : Except NumeralError Int :=
  let (sign, body) := signOf (text.dropWhile isNumeralBlank)
  match digitRun body with
  | none => .error (.malformed (String.ofList text))
  | some (digits, rest) =>
    if maxDigits < digits.length then .error (.tooLong digits.length)
    else if digits.isEmpty || !rest.all isNumeralBlank then .error (.malformed (String.ofList text))
    else .ok (sign * (natOfDigits digits : Int))

end Crossref.Text
