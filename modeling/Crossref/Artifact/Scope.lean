/-
Scopes. Within one file an entity opens a range at its declaration and at each of its bodies, and each end of a
specification or of a body closes the latest range still open. The scope of a position is the owner of the range that
starts last among those that hold the position strictly inside.
-/
import Crossref.Artifact.Unit

namespace Crossref.Artifact

/-- A use of an entity before its scope is known. -/
structure Use where
  target : EntityKey
  location : Location
  kind : ReferenceKind
  deriving DecidableEq, Repr

structure ScopeRange where
  start : Position
  stop : Position
  owner : EntityKey
  deriving DecidableEq, Repr

def sortPositions (ps : List Position) : List Position :=
  ps.mergeSort fun p q => !q.before p

def Use.isOf (u : Use) (owner : EntityKey) (file : String) : Bool :=
  u.target = owner && u.location.file = file

/-- The positions where `owner` opens a range in `file`, in order. -/
def openers (declared : List EntityKey) (uses : List Use) (owner : EntityKey) (file : String) : List Position :=
  sortPositions <|
    ((uses.filter fun u => u.isOf owner file && u.kind.opensScope).map (·.location.position)) ++
      (if declared.contains owner && owner.file = file then [⟨owner.line, owner.column⟩] else [])

/-- The positions where `owner` closes a range in `file`, in order. -/
def closers (uses : List Use) (owner : EntityKey) (file : String) : List Position :=
  sortPositions ((uses.filter fun u => u.isOf owner file && u.kind.closesScope).map (·.location.position))

/-- Gives each closer, from first to last, the closest opener before it that is not used yet. -/
def pairUp (openers : List Position) : List Position → List (Position × Position)
  | [] => []
  | c :: cs =>
    match (openers.filter (·.before c)).getLast? with
    | none => pairUp openers cs
    | some o => (o, c) :: pairUp (openers.erase o) cs

/-- The owners with a closer in `file`, each once, in the order of their first closer. -/
def closingOwners (uses : List Use) (file : String) : List EntityKey :=
  ((uses.filter fun u => u.location.file = file && u.kind.closesScope).map (·.target)).eraseDups

def ownerRanges (declared : List EntityKey) (uses : List Use) (file : String) (owner : EntityKey) : List ScopeRange :=
  (pairUp (openers declared uses owner file) (closers uses owner file)).map fun (o, c) => ⟨o, c, owner⟩

/-- The ranges of a file, sorted by start; ranges with one start stay in the order of their owners. -/
def scopeRanges (declared : List EntityKey) (uses : List Use) (file : String) : List ScopeRange :=
  ((closingOwners uses file).flatMap (ownerRanges declared uses file)).mergeSort
    fun r s => !s.start.before r.start

/-- The ranges of each file in which something is used. -/
def scopeTable (declared : List EntityKey) (uses : List Use) : List (String × List ScopeRange) :=
  ((uses.map (·.location.file)).eraseDups).map fun file => (file, scopeRanges declared uses file)

/-- The scope of a position, for ranges sorted by start. -/
def innermost (ranges : List ScopeRange) (p : Position) : Option EntityKey :=
  ((ranges.takeWhile (·.start.before p)).filter fun r => p.before r.stop).getLast?.map (·.owner)

def scopeOf (table : List (String × List ScopeRange)) (l : Location) : Option EntityKey :=
  innermost ((table.lookup l.file).getD []) l.position

end Crossref.Artifact
