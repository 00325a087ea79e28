/-
Entities are known by key: a name and the place of the declaration. A key without a name stands for whatever is declared
at its location.
-/

namespace Crossref

/-- A place inside one file; lines come before columns. -/
structure Position where
  line : Int
  column : Int
  deriving DecidableEq, Repr

def Position.before (p q : Position) : Bool :=
  p.line < q.line || (p.line = q.line && p.column < q.column)

theorem Position.before_iff {p q : Position} :
    p.before q = true ↔ p.line < q.line ∨ p.line = q.line ∧ p.column < q.column := by
  simp [Position.before]

structure Location where
  file : String
  line : Int
  column : Int
  deriving DecidableEq, Repr

def Location.position (l : Location) : Position :=
  ⟨l.line, l.column⟩

structure EntityKey where
  name : String
  file : String
  line : Int
  column : Int
  deriving DecidableEq, Repr

def EntityKey.location (k : EntityKey) : Location :=
  ⟨k.file, k.line, k.column⟩

/-- The key that knows only a location. -/
def Location.key (l : Location) : EntityKey :=
  ⟨"", l.file, l.line, l.column⟩

/-- How a parameter is passed. -/
inductive ParameterMode where
  | input
  | output
  | inOut
  | access
  deriving DecidableEq, Repr

def ParameterMode.text : ParameterMode → String
  | .input => "in"
  | .output => "out"
  | .inOut => "in-out"
  | .access => "access"

def ParameterMode.ofText? (s : String) : Option ParameterMode :=
  [ParameterMode.input, .output, .inOut, .access].find? fun m => m.text = s

end Crossref
