/-
Real numbers as text: blanks around, a sign, digits with an optional point and exponent, or one of the words for
infinity and for what is not a number. Single underscores may stand between digits. A number is kept exactly, as a
whole number times a power of ten; `toWhole` rounds it to a binary number of 64 bits first.
-/
import Crossref.Text.Numeral

namespace Crossref.Text

inductive Decimal where
  /-- The mantissa times ten to the exponent. -/
  | finite (mantissa exponent : Int)
  | infinite (negative : Bool)
  | notANumber
  deriving DecidableEq, Repr

/-- The text with every decimal digit in its plain form. -/
def plainDigits (s : List Char) : List Char :=
  s.map fun c => match digitValue? c with
    | some d => Char.ofNat (48 + d)
    | none => c

/-- Takes underscores out; `none` if one does not stand between two digits. -/
def dropUnderscores (before : Char) : List Char → Option (List Char)
  | [] => if before = '_' then none else some []
  | c :: r =>
    if c = '_' then
      if before.isDigit then dropUnderscores '_' r else none
    else if before = '_' && !c.isDigit then none
    else (dropUnderscores c r).map (c :: ·)

/-- The number that plain digits denote. -/
def natOfPlain (digits : List Char) : Nat :=
  natOfDigits (digits.map fun c => c.toNat - 48)

/-- An exponent with its mark, or nothing, which stands for zero. -/
def readExponent : List Char → Option Int
  | [] => some 0
  | mark :: r =>
    let (sign, digits) := signOf r
    if mark.toLower = 'e' && !digits.isEmpty && digits.all Char.isDigit then some (sign * (natOfPlain digits : Int))
    else none

/-- Digits with an optional point, and then an optional exponent with at least one digit. -/
def readUnsigned (s : List Char) : Option (Nat × Int) :=
  let whole := s.takeWhile Char.isDigit
  let s := s.dropWhile Char.isDigit
  let (fraction, s) := match s with
    | '.' :: r => (r.takeWhile Char.isDigit, r.dropWhile Char.isDigit)
    | s => ([], s)
  if whole.isEmpty && fraction.isEmpty then none
  else (readExponent s).map fun e => (natOfPlain (whole ++ fraction), e - fraction.length)

/-- A real number without the blanks around it. -/
def readTrimmed (s : List Char) : Option Decimal :=
  let (sign, body) := signOf s
  match String.ofList (body.map Char.toLower) with
  | "inf" | "infinity" => some (.infinite (sign < 0))
  | "nan" => some .notANumber
  | _ => (readUnsigned body).map fun (mantissa, exponent) => .finite (sign * mantissa) exponent

def readDecimal (text : List Char) : Option Decimal :=
  match dropUnderscores ' ' (plainDigits text) with
  | none => none
  | some s => readTrimmed ((s.dropWhile isNumeralBlank).reverse.dropWhile isNumeralBlank).reverse

/-- The text denotes a real number. -/
def isReal (text : List Char) : Bool :=
  (readDecimal text).isSome

/-! Rounding to a binary number of 64 bits -/

inductive Binary where
  | finite (value : Rat)
  | infinite (negative : Bool)
  | notANumber
  deriving DecidableEq

/-- The whole number nearest to a quotient, or the even one of two that are as near. -/
def roundQuotient (n d : Nat) : Nat :=
  let q := n / d
  let twice := 2 * (n % d)
  if d < twice || (twice = d && q % 2 = 1) then q + 1 else q

/-- The logarithm of a quotient that is not zero, rounded down. -/
def quotientLog2 (n d : Nat) : Int :=
  let e : Int := (n.log2 : Int) - d.log2
  let reached : Bool := if 0 ≤ e then d <<< e.toNat ≤ n else d ≤ n <<< (-e).toNat
  if reached then e else e - 1

/-- The nearest number that has 53 binary digits at most, none of them below the place of two to minus 1074. -/
def roundBinary (n d : Nat) : Rat :=
  let e := max (quotientLog2 n d - 52) (-1074)
  if 0 ≤ e then Rat.ofInt (roundQuotient n (d <<< e.toNat) <<< e.toNat : Nat)
  else mkRat (roundQuotient (n <<< (-e).toNat) d) (1 <<< (-e).toNat)

/-- No decimal exponent of a finite number is larger than this one. -/
def exponentLimit : Nat := 400

def Decimal.toBinary : Decimal → Binary
  | .finite mantissa exponent =>
    let m := mantissa.natAbs
    if m = 0 || exponent < -(exponentLimit + m.log2 : Nat) then .finite 0
    else if exponentLimit < exponent then .infinite (mantissa < 0)
    else
      let size := if 0 ≤ exponent then roundBinary (m * Nat.pow 10 exponent.toNat) 1
        else roundBinary m (Nat.pow 10 (-exponent).toNat)
      if size.num.natAbs < size.den <<< 1024 then .finite (if mantissa < 0 then size.neg else size)
      else .infinite (mantissa < 0)
  | .infinite negative => .infinite negative
  | .notANumber => .notANumber

inductive WholeFault where
  | notFinite
  | fraction
  | tooLarge
  deriving DecidableEq, Repr

/-- The whole number that a decimal rounds to in binary, if it fits into a signed word. -/
def Decimal.toWhole (d : Decimal) : Except WholeFault Int :=
  match d.toBinary with
  | .finite value =>
    if value.den ≠ 1 then .error .fraction
    else if value.num.natAbs < 0x8000000000000000 then .ok value.num
    else .error .tooLarge
  | _ => .error .notFinite

end Crossref.Text
