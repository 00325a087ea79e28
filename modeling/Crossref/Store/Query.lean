/-
Questions to a store. A search by file takes a path as a row of segments: a stored path matches if its segments end with
the asked ones or the asked ones end with its own. Entities come by path, line, column and id, the references of an
entity by path, line and column and then in the order in which they were recorded.
-/
import Crossref.Path
import Crossref.Store.Basic
import Crossref.Store.FileMatch
import Crossref.Text.Decimal

namespace Crossref

structure EntityInfo where
  id : Int
  name : String
  kind : String
  location : Location
  deriving DecidableEq, Repr

structure ReferenceInfo where
  entity : Int
  location : Location
  kind : String
  scope : Option Int
  deriving DecidableEq, Repr

structure ParameterInfo where
  parameter : Option Int
  mode : String
  ordinal : Int
  deriving DecidableEq, Repr

structure Stats where
  files : Nat
  artifacts : Nat
  entities : Nat
  references : Nat
  parameters : Nat
  pending : Nat
  indexed : Bool
  byKind : List (String × Nat)
  deriving DecidableEq, Repr

/-- What an entity search asks for; a line or column of minus one asks for nothing. -/
structure EntityFilter where
  name : Option String := none
  file : Option String := none
  line : Int := -1
  column : Int := -1
  kind : Option String := none
  deriving DecidableEq, Repr

def EntityFilter.accepts (f : EntityFilter) (e : EntityInfo) : Bool :=
  f.name.all (e.name = ·) && f.file.all (matchesFile e.location.file) &&
    (f.line = -1 || e.location.line = f.line) && (f.column = -1 || e.location.column = f.column) &&
    f.kind.all (e.kind = ·)

def Location.le (l m : Location) : Bool :=
  l.file < m.file || (l.file = m.file && !m.position.before l.position)

/-- By location, and by id where the locations agree. -/
def EntityInfo.le (d e : EntityInfo) : Bool :=
  if d.location = e.location then d.id ≤ e.id else d.location.le e.location

namespace Contents

def info? (c : Contents) (e : EntityRow) : Option EntityInfo :=
  (c.filePath? e.fileId).map fun path => ⟨e.id, e.name, e.kind, ⟨path, e.line, e.column⟩⟩

def entityInfos (c : Contents) (f : EntityFilter) : List EntityInfo :=
  ((c.entities.filterMap c.info?).filter f.accepts).mergeSort EntityInfo.le

def entityInfo? (c : Contents) (id : Int) : Option EntityInfo :=
  (c.entities.find? (·.id = id)).bind c.info?

def referenceInfo? (c : Contents) (entity : Int) (r : ReferenceRow) : Option ReferenceInfo :=
  if r.target.id = some entity then
    (c.filePath? r.fileId).map fun path => ⟨entity, ⟨path, r.line, r.column⟩, r.kind, r.scope.id⟩
  else none

def referenceInfos (c : Contents) (entity : Int) : List ReferenceInfo :=
  (c.references.filterMap (c.referenceInfo? entity)).mergeSort fun r s => r.location.le s.location

def parameterInfos (c : Contents) (entity : Int) : List ParameterInfo :=
  ((c.parameters.filter (·.ownerId = entity)).map fun p => ⟨p.parameter.id, p.mode, p.ordinal⟩).mergeSort
    fun p q => p.ordinal ≤ q.ordinal

/-- The kinds of entity that occur, each with its number. -/
def kindCounts (c : Contents) : List (String × Nat) :=
  (c.entities.map (·.kind)).eraseDups.map fun kind => (kind, c.entities.countP (·.kind = kind))

/-- The artifacts with their paths, in the order of the paths. -/
def artifactStamps (c : Contents) : List (String × Int × String) :=
  (c.artifacts.filterMap fun a => (c.filePath? a.fileId).map fun path => (path, a.mtime, a.checksum)).mergeSort
    fun a b => a.1 ≤ b.1

def dependencyInfos (c : Contents) (artifactId : Int) : List (String × String × String) :=
  ((c.dependencies.filter (·.artifactId = artifactId)).filterMap fun d =>
    (c.filePath? d.fileId).map fun path => (path, d.stamp, d.checksum)).mergeSort fun a b => a.1 ≤ b.1

def missingTables (c : Contents) : List String :=
  (Table.all.filter fun t => !c.has t).map (·.name)

end Contents

namespace Store

open StoreM

def setting? (key : String) : StoreM (Option String) :=
  query [.settings] [] (·.setting? key)

/-- The store holds an index of this version, with all its tables. -/
def checkSchema : StoreM PUnit := do
  let path := (← get).path
  let (isIndex, missing) ← query [] [] fun c => (c.has .settings, c.missingTables)
  if !isIndex then throw (.schema path .foreign)
  let version ← setting? Contents.schemaKey
  if version ≠ some schemaVersion then throw (.schema path (.version version))
  if !missing.isEmpty then throw (.schema path (.missingTables missing))

/-- Some file is recorded. -/
def hasContent : StoreM Bool :=
  query [.files] [] fun c => !c.files.isEmpty

def file? (path : String) : StoreM (Option FileRow) :=
  query [.files] [] (·.file? path)

def fileId? (path : String) : StoreM (Option Int) :=
  query [.files] [] (·.fileId? path)

/-- The recorded files, or those of one kind, in the order of their paths. -/
def listFiles (kind : Option String) : StoreM (List FileRow) :=
  query [.files] [] fun c => (c.files.filter fun f => kind.all (f.kind = ·)).mergeSort fun f g => f.path ≤ g.path

def artifact? (fileId : Int) : StoreM (Option ArtifactRow) :=
  query [.artifacts] [fileId] (·.artifact? fileId)

def artifactStamps : StoreM (List (String × Int × String)) :=
  query [.artifacts, .files] [] (·.artifactStamps)

def dependencies (artifactId : Int) : StoreM (List (String × String × String)) :=
  query [.dependencies, .files] [artifactId] (·.dependencyInfos artifactId)

def findEntity (key : EntityKey) : StoreM (Option Int) :=
  query [.entities, .files] [key.line, key.column] fun c => (c.entity? key).map (·.id)

def filterNumbers (f : EntityFilter) : List Int :=
  [f.line, f.column].filter (· ≠ -1)

def entities (f : EntityFilter) : StoreM (List EntityInfo) :=
  query [.entities, .files] (filterNumbers f) (·.entityInfos f)

/-- The id that stands for no entity. -/
def noEntity : Int := -1

def entity? (id : Int) : StoreM (Option EntityInfo) :=
  if id = noEntity then pure none else query [.entities, .files] [id] (·.entityInfo? id)

def references (id : Int) : StoreM (List ReferenceInfo) :=
  query [.references, .files] [id] (·.referenceInfos id)

def parameters (id : Int) : StoreM (List ParameterInfo) :=
  query [.parameters] [id] (·.parameterInfos id)

/-- Whether a time of an update is recorded; the recorded text has to be a number. -/
def isIndexed (recorded : Option String) : StoreM Bool :=
  match recorded with
  | none => pure false
  | some text =>
    if text = "" then pure false
    else if Text.isReal text.toList then pure true
    else throw (.notAFloat text)

def stats : StoreM Stats := do
  let recorded ← setting? Contents.indexedKey
  let byKind ← query [.entities] [] (·.kindCounts)
  let files ← query [.files] [] (·.files.length)
  let artifacts ← query [.artifacts] [] (·.artifacts.length)
  let entities ← query [.entities] [] (·.entities.length)
  let references ← query [.references] [] (·.references.countP (·.target.id.isSome))
  let parameters ← query [.parameters] [] (·.parameters.length)
  let pending ← query [.references] [] (·.references.countP (·.target.id.isNone))
  let indexed ← isIndexed recorded
  pure { files, artifacts, entities, references, parameters, pending, indexed, byKind }

end Store

end Crossref
