/-
Configuration values: scalars, lists, and mappings from scalars to values. A mapping keeps its keys in the order in
which they were first set.
-/
import Crossref.Text.Decimal

namespace Crossref.Config

inductive Scalar where
  | null
  | bool (b : Bool)
  | int (n : Int)
  | decimal (d : Text.Decimal)
  | text (s : String)
  /-- A date, or another value that no setting takes; only its text is kept. -/
  | other (text : String)
  deriving DecidableEq, Repr

/-- What tells the keys of a mapping apart: a truth value is the number one or zero, and a number counts by its value. -/
inductive Key where
  | null
  | number (value : Text.Binary)
  | text (s : String)
  | other (text : String)
  deriving DecidableEq

def Scalar.key : Scalar → Key
  | .null => .null
  | .bool b => .number (.finite (if b then 1 else 0))
  | .int n => .number (.finite n)
  | .decimal d => .number d.toBinary
  | .text s => .text s
  | .other s => .other s

inductive Value where
  | scalar (s : Scalar)
  | list (items : List Value)
  | mapping (entries : List (Scalar × Value))
  deriving Repr, Inhabited

abbrev Mapping := List (Scalar × Value)

def Value.text (s : String) : Value :=
  .scalar (.text s)

namespace Mapping

def get? (m : Mapping) (key : Scalar) : Option Value :=
  (m.find? (·.1.key = key.key)).map (·.2)

/-- A key that is set again stays as it is, in its place. -/
def set (m : Mapping) (key : Scalar) (v : Value) : Mapping :=
  if m.any (·.1.key = key.key) then m.map fun e => if e.1.key = key.key then (e.1, v) else e else m ++ [(key, v)]

def ofList (entries : List (Scalar × Value)) : Mapping :=
  entries.foldl (fun m e => set m e.1 e.2) []

end Mapping

end Crossref.Config
