/-
Settings from variables. The names of the variables begin alike and are compared without regard to case. A variable of
the process counts before one that a file assigns; of two that differ only in case the later counts.
-/
import Crossref.Config.Assignment
import Crossref.Config.Settings

namespace Crossref.Config

/-- The settings that variables may replace. -/
structure Overrides where
  memoryThreshold : Option Int := none
  parseWorkers : Option Int := none
  deriving DecidableEq, Repr

/-- What the names of the variables begin with. -/
def variableLeading : String :=
  "xrefdb_"

/-- The last value given to a name. -/
def lastValue? (given : List (String × String)) (name : String) : Option String :=
  (given.reverse.find? fun (n, _) => Text.lowercase n = name).map (·.2)

namespace Overrides

/-- The value of the variable for a setting. -/
def given? (process : Variables) (file : List Assignment) (name : String) : Option String :=
  let assigned := file.reverse.find? fun a => Text.lowercase a.name = variableLeading ++ name
  lastValue? process (variableLeading ++ name) <|> assigned.bind (·.value)

def readOverride (process : Variables) (file : List Assignment) (name : String) : Checked (Option Int) :=
  match given? process file name with
  | none => .ok none
  | some text =>
    match Whole.ofText text with
    | .ok n => .ok (some n)
    | .error p => .error [⟨[.field name], .whole p⟩]

def ofVariables (process : Variables) (file : List Assignment) : Except Rejection Overrides :=
  Checked.of .environment
    (Checked.and Overrides.mk (readOverride process file thresholdName) (readOverride process file workersName))

/-- Whether a setting is replaced at all. -/
def isEmpty (o : Overrides) : Bool :=
  o.memoryThreshold.isNone && o.parseWorkers.isNone

end Overrides

/-- A replaced setting has to be in range again. -/
def inRange (name : String) (least n : Int) : Checked Int :=
  if n < least then .error [⟨[.field name], .tooSmall⟩] else .ok n

/-- The settings with the replaced ones put in. -/
def IndexSettings.override (s : IndexSettings) (o : Overrides) : Except Rejection IndexSettings :=
  Checked.of .index
    (Checked.and (fun t w => { s with memoryThreshold := t, parseWorkers := w })
      (inRange thresholdName 0 (o.memoryThreshold.getD s.memoryThreshold))
      (inRange workersName 1 (o.parseWorkers.getD s.parseWorkers)))

end Crossref.Config
