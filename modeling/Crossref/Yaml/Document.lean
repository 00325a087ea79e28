/-
The value of a document. Each scalar is read as its type says. A mapping takes over the entries of the mappings under
its merge key, before its own; a later entry for a key replaces an earlier one. Keys have to be scalars.
-/
import Crossref.Config.Value
import Crossref.Text.Lowercase
import Crossref.Yaml.Node

namespace Crossref.Yaml

open Config (Scalar Value Mapping)

/-! Scalars -/

/-- Digits of a number in some base, with an optional sign in front. -/
def readBase (base : Nat) (digits : List Char) : Except Fault Int :=
  let (sign, body) := Text.signOf digits
  if body.isEmpty || !body.all (fun c => isHexDigit c && hexValue c < base) then
    .error (.numeral (String.ofList digits) base)
  else if base = 10 && Text.maxDigits < body.length then .error (.tooLong body.length)
  else .ok (sign * (body.foldl (fun n c => base * n + hexValue c) 0 : Nat))

/-- The parts of a number written in sixtieths. -/
def readSixtieths (parts : List (List Char)) : Except Fault Int := do
  let numbers ← parts.mapM (readBase 10)
  pure (numbers.foldl (fun n d => 60 * n + d) 0)

/-- A number without its sign; what it begins with says its base. -/
def readWholeBody : List Char → Except Fault Int
  | ['0'] => .ok 0
  | '0' :: 'b' :: r => readBase 2 r
  | '0' :: 'x' :: r => readBase 16 r
  | '0' :: 'o' :: r => readBase 8 r
  | '0' :: r => readBase 8 ('0' :: r)
  | s => if s.contains ':' then readSixtieths (Plain.atColons s) else readBase 10 s

def signFactor (s : List Char) : Int :=
  if s.head? = some '-' then -1 else 1

def readWhole (text : String) : Except Fault Int := do
  let s := text.toList.filter (· ≠ '_')
  let body := Plain.dropSign s
  if body.isEmpty then .error .emptyNumeral
  else
    let n ← readWholeBody body
    pure (signFactor s * n)

/-- A decimal, times a power of sixty. -/
def scaleDecimal (factor : Nat) : Text.Decimal → Text.Decimal
  | .finite mantissa exponent => .finite (factor * mantissa) exponent
  | d => d

/-- A power of ten; one for an exponent below zero. -/
def tenTo (exponent : Int) : Int :=
  Nat.pow 10 exponent.toNat

/-- The sum of two decimals. -/
def addDecimals : Text.Decimal → Text.Decimal → Text.Decimal
  | .finite m e, .finite n f =>
    if e ≤ f then .finite (m + n * tenTo (f - e)) e else .finite (m * tenTo (e - f) + n) f
  | .finite _ _, d => d
  | d, _ => d

def readPart (part : List Char) : Except Fault Text.Decimal :=
  match Text.readDecimal part with
  | some d => .ok d
  | none => .error (.notADecimal (String.ofList part))

/-- The parts of a decimal written in sixtieths. -/
def readDecimalSixtieths (parts : List (List Char)) : Except Fault Text.Decimal := do
  let numbers ← parts.mapM readPart
  pure (numbers.foldl (fun sum d => addDecimals (scaleDecimal 60 sum) d) (.finite 0 0))

def negate : Text.Decimal → Text.Decimal
  | .finite mantissa exponent => .finite (-mantissa) exponent
  | .infinite negative => .infinite !negative
  | .notANumber => .notANumber

def readFloatBody (s : List Char) : Except Fault Text.Decimal :=
  if s = ".inf".toList then .ok (.infinite false)
  else if s = ".nan".toList then .ok .notANumber
  else if s.contains ':' then readDecimalSixtieths (Plain.atColons s)
  else readPart s

def readFloat (text : String) : Except Fault Text.Decimal := do
  let s := (text.toList.filter (· ≠ '_')).map Char.toLower
  if s.isEmpty then .error .emptyNumeral
  else
    let d ← readFloatBody (Plain.dropSign s)
    pure (if s.head? = some '-' then negate d else d)

def readTruth (text : String) : Except Fault Bool :=
  let low := Text.lowercase text
  if ["yes", "true", "on"].contains low then .ok true
  else if ["no", "false", "off"].contains low then .ok false
  else .error (.notABoolean low)

/-- A date that a calendar shows; only its text is kept. -/
def readMoment (text : String) : Except Fault Scalar :=
  match Moment.ofChars? text.toList with
  | none => .error .notADate
  | some m =>
    match m.problem? with
    | some reason => .error (.date reason)
    | none => .ok (.other text)

/-- The scalar that a text is under a type. -/
def readScalar (tag : Tag) (text : String) : Except Fault Scalar :=
  match tag with
  | .null => .ok .null
  | .bool => (readTruth text).map .bool
  | .int => (readWhole text).map .int
  | .float => (readFloat text).map .decimal
  | .timestamp => readMoment text
  | .str => .ok (.text text)
  | .binary => .ok (.other text)
  | _ => .error .type

/-! Collections -/

/-- A list of pairs and a set keep only that there is something. -/
def pairMark : Value :=
  .scalar (.other "pair")

/-- Every item is a mapping with one entry. -/
def isPairList : List Node → Bool
  | [] => true
  | .mapping _ [_] :: rest => isPairList rest
  | _ => false

def keyOf : Value → Except Fault Scalar
  | .scalar s => .ok s
  | _ => .error .type

/-- The type of a node that is the key of an entry; the sign for a value is a text there. -/
def keyTag : Tag → Tag
  | .value => .str
  | tag => tag

def isMergeKey : Node → Bool
  | .scalar .merge _ => true
  | .sequence .merge _ => true
  | .mapping .merge _ => true
  | _ => false

/-- The entries of a mapping: those that it takes over, and its own. -/
structure Entries where
  merged : List (Scalar × Value) := []
  own : List (Scalar × Value) := []

def Entries.all (e : Entries) : List (Scalar × Value) :=
  e.merged ++ e.own

mutual

/-- The value of a node; a node that stands for one around it has none. -/
def Node.value : Node → Except Fault Value
  | .scalar tag text => (readScalar tag text).map .scalar
  | .sequence .seq items => do pure (.list (← itemValues items))
  | .sequence .omap items | .sequence .pairs items => do
    if !isPairList items then .error .type
    else pure (.list ((← itemValues items).map fun _ => pairMark))
  | .sequence _ _ => .error .type
  | .mapping .map entries => do pure (.mapping (Mapping.ofList (← entryValues entries).all))
  | .mapping .set entries => do
    pure (.list ((Mapping.ofList (← entryValues entries).all).map fun (key, _) => .scalar key))
  | .mapping _ _ => .error .type
  | .enclosing => .error .endless

def itemValues : List Node → Except Fault (List Value)
  | [] => .ok []
  | n :: rest => do
    let v ← n.value
    pure (v :: (← itemValues rest))

/-- The key of an entry. -/
def keyValue : Node → Except Fault Scalar
  | .scalar tag text => readScalar (keyTag tag) text
  | .sequence tag items => do keyOf (← Node.value (.sequence tag items))
  | .mapping tag entries => do keyOf (← Node.value (.mapping tag entries))
  | .enclosing => .error .endless

def entryValues : List (Node × Node) → Except Fault Entries
  | [] => .ok {}
  | (key, v) :: rest =>
    if isMergeKey key then do
      let taken ← takenOver v
      let others ← entryValues rest
      pure { others with merged := taken ++ others.merged }
    else do
      let k ← keyValue key
      let v ← v.value
      let others ← entryValues rest
      pure { others with own := (k, v) :: others.own }

/-- The entries taken over from a mapping, or from several, of which an earlier one replaces what later ones say. -/
def takenOver : Node → Except Fault (List (Scalar × Value))
  | .mapping _ entries => do pure (← entryValues entries).all
  | .sequence _ items => takenOverAll items
  | _ => .error .type

def takenOverAll : List Node → Except Fault (List (Scalar × Value))
  | [] => .ok []
  | .mapping _ entries :: rest => do
    let first := (← entryValues entries).all
    pure ((← takenOverAll rest) ++ first)
  | _ => .error .type

end

/-- The value of the only document in a text; without one it is null. -/
def readDocument (text : List Char) : Except Fault Value := do
  match ← Node.ofChars text with
  | none => pure (.scalar .null)
  | some n => n.value

end Crossref.Yaml
