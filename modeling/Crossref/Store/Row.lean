/-
The rows of a store. Files, entities and references have ids; a link to an entity is either the id of it or the key of
an entity that is not there yet.
-/
import Crossref.Entity

namespace Crossref

/-- What is said about a file when it is recorded. -/
structure FileRecord where
  path : String
  kind : String := "source"
  stamp : String := ""
  checksum : String := ""
  runtime : Bool := false
  deriving DecidableEq, Repr

structure FileRow where
  id : Int
  path : String
  kind : String
  stamp : String
  checksum : String
  runtime : Bool
  deriving DecidableEq, Repr

/-- An artifact stays an artifact, and an empty stamp or checksum leaves the recorded one. -/
def FileRow.merge (old : FileRow) (new : FileRecord) : FileRow :=
  { old with
    kind := if new.kind = "artifact" then "artifact" else old.kind
    stamp := if new.stamp = "" then old.stamp else new.stamp
    checksum := if new.checksum = "" then old.checksum else new.checksum
    runtime := new.runtime }

/-- The artifact whose rows are in the store; times are in milliseconds. -/
structure ArtifactRow where
  fileId : Int
  unitName : String
  mtime : Int
  checksum : String
  /-- When the artifact was recorded. -/
  indexedAt : Int
  deriving DecidableEq, Repr

structure DependencyRow where
  artifactId : Int
  fileId : Int
  stamp : String
  checksum : String
  deriving DecidableEq, Repr

structure EntityRow where
  id : Int
  name : String
  kind : String
  fileId : Int
  line : Int
  column : Int
  deriving DecidableEq, Repr

/-- Says which artifact owns an entity. -/
structure DeclarationRow where
  entityId : Int
  artifactId : Int
  libraryLevel : Bool
  deriving DecidableEq, Repr

/-- The key of an entity that is awaited; an empty name stands for any entity at the place. -/
structure PendingKey where
  name : Option String := none
  fileId : Option Int := none
  line : Option Int := none
  column : Option Int := none
  deriving DecidableEq, Repr

structure StoredLink where
  id : Option Int := none
  pending : PendingKey := {}
  deriving DecidableEq, Repr

/-- What is said about a reference when it is recorded. -/
structure ReferenceRecord where
  target : StoredLink
  artifactId : Int
  fileId : Int
  line : Int
  column : Int
  kind : String
  scope : StoredLink
  deriving DecidableEq, Repr

structure ReferenceRow extends ReferenceRecord where
  id : Int
  deriving DecidableEq, Repr

structure ParameterRow where
  ownerId : Int
  ordinal : Int
  parameter : StoredLink
  mode : String
  artifactId : Int
  deriving DecidableEq, Repr

def EntityRow.pendingKey (e : EntityRow) : PendingKey :=
  ⟨some e.name, some e.fileId, some e.line, some e.column⟩

/-- The entity is one that the key awaits. -/
def PendingKey.accepts (k : PendingKey) (e : EntityRow) : Bool :=
  k.fileId = some e.fileId && k.line = some e.line && k.column = some e.column &&
    (k.name = some "" || k.name = some e.name)

end Crossref
