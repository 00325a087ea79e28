/-
What one artifact says about its compilation unit, with every entity named by its key.
-/
import Crossref.Entity

namespace Crossref

/-- A file the unit was compiled against, with the stamp and the checksum it had then. -/
structure Dependency where
  path : String
  stamp : String
  checksum : String
  unitName : String
  deriving DecidableEq, Repr

structure Declaration where
  key : EntityKey
  kind : String
  libraryLevel : Bool
  /-- The key's file is one of the unit's own source files. -/
  owned : Bool
  deriving DecidableEq, Repr

inductive ReferenceKind where
  | read
  | write
  | call
  | dispatchingCall
  | body
  | completion
  | endOfSpec
  | endOfBody
  | label
  | withClause
  | implicit
  | parent
  | primitive
  | typeExtension
  | discriminant
  | ownVariable
  | genericFormal
  deriving DecidableEq, Repr

def ReferenceKind.text : ReferenceKind → String
  | .read => "read"
  | .write => "write"
  | .call => "call"
  | .dispatchingCall => "dispatching-call"
  | .body => "body"
  | .completion => "completion"
  | .endOfSpec => "end-of-spec"
  | .endOfBody => "end-of-body"
  | .label => "label"
  | .withClause => "with"
  | .implicit => "implicit"
  | .parent => "parent"
  | .primitive => "primitive"
  | .typeExtension => "type-extension"
  | .discriminant => "discriminant"
  | .ownVariable => "own-variable"
  | .genericFormal => "generic-formal"

def ReferenceKind.opensScope (k : ReferenceKind) : Bool :=
  k = .body

def ReferenceKind.closesScope (k : ReferenceKind) : Bool :=
  k = .endOfSpec || k = .endOfBody

/-- A use of an entity. The scope is the entity in whose text the use stands. -/
structure Reference where
  target : EntityKey
  location : Location
  kind : ReferenceKind
  scope : Option EntityKey
  deriving DecidableEq, Repr

/-- A parameter of a subprogram; its key has no name if the unit does not declare it. Ordinals start at one. -/
structure Parameter where
  owner : EntityKey
  key : EntityKey
  mode : ParameterMode
  ordinal : Nat
  deriving DecidableEq, Repr

structure CompilationUnit where
  path : String
  unitName : String
  version : String
  checksum : String
  sourceFiles : List String
  dependencies : List Dependency
  declarations : List Declaration
  references : List Reference
  parameters : List Parameter
  deriving DecidableEq, Repr

def CompilationUnit.owned (u : CompilationUnit) : List Declaration :=
  u.declarations.filter (·.owned)

end Crossref
