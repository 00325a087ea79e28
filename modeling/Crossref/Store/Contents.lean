/-
The contents of a store: its tables, the rows in them and the counters that ids are taken from. Files, entities and
references are kept in the order of their ids. Every insertion takes a number from its counter, also one that only
changes a row that is there already; once a counter has reached the largest id, no insertion is possible. A row may only
name files and entities that exist.
-/
import Crossref.Failure
import Crossref.Store.Row

namespace Crossref

inductive Table where
  | settings
  | files
  | artifacts
  | dependencies
  | entities
  | declarations
  | references
  | parameters
  deriving DecidableEq, Repr

def Table.name : Table → String
  | .settings => "index_meta"
  | .files => "files"
  | .artifacts => "artifacts"
  | .dependencies => "artifact_deps"
  | .entities => "entities"
  | .declarations => "declarations"
  | .references => "entity_refs"
  | .parameters => "parameters"

/-- The tables of an index, in the order of their names. -/
def Table.all : List Table :=
  [.dependencies, .artifacts, .declarations, .entities, .references, .files, .settings, .parameters]

structure Contents where
  /-- The names of the tables that exist. -/
  tables : List String := []
  settings : List (String × String) := []
  files : List FileRow := []
  artifacts : List ArtifactRow := []
  dependencies : List DependencyRow := []
  entities : List EntityRow := []
  declarations : List DeclarationRow := []
  references : List ReferenceRow := []
  parameters : List ParameterRow := []
  /-- The last id given to a file. -/
  lastFile : Int := 0
  /-- The last id given to an entity. -/
  lastEntity : Int := 0
  /-- The last id given to a reference. -/
  lastReference : Int := 0
  deriving DecidableEq, Repr

namespace Contents

def schemaKey : String := "schema_version"

def indexedKey : String := "last_indexed_at"

/-- A store without tables. -/
def blank : Contents := {}

/-- An index in which nothing is recorded. -/
def empty : Contents :=
  { tables := Table.all.map (·.name), settings := [(schemaKey, schemaVersion)] }

def has (c : Contents) (t : Table) : Bool :=
  c.tables.contains t.name

/-! Looking up -/

def setting? (c : Contents) (key : String) : Option String :=
  c.settings.lookup key

def file? (c : Contents) (path : String) : Option FileRow :=
  c.files.find? (·.path = path)

def fileId? (c : Contents) (path : String) : Option Int :=
  (c.file? path).map (·.id)

def filePath? (c : Contents) (id : Int) : Option String :=
  (c.files.find? (·.id = id)).map (·.path)

def hasFile (c : Contents) (id : Int) : Bool :=
  c.files.any (·.id = id)

def hasEntity (c : Contents) (id : Int) : Bool :=
  c.entities.any (·.id = id)

def artifact? (c : Contents) (fileId : Int) : Option ArtifactRow :=
  c.artifacts.find? (·.fileId = fileId)

def entityAt? (c : Contents) (name : String) (fileId line column : Int) : Option EntityRow :=
  c.entities.find? fun e => e.name = name && e.fileId = fileId && e.line = line && e.column = column

/-- The entity with a key; a key without a name takes the entity with the least id at its location. -/
def entity? (c : Contents) (key : EntityKey) : Option EntityRow :=
  c.entities.find? fun e =>
    (key.name = "" || e.name = key.name) && c.filePath? e.fileId = some key.file && e.line = key.line &&
      e.column = key.column

/-! Inserting -/

def largestId : Int :=
  0x7fffffffffffffff

/-- An insertion asks for the number after the last one; there is none after the largest. -/
def numbered (last : Int) (inserted : Except RowFault Contents) : Except RowFault Contents :=
  if last < largestId then inserted else .error .full

/-! Files and artifacts -/

def setSetting (c : Contents) (key value : String) : Contents :=
  { c with
    settings :=
      if c.settings.any (·.1 = key) then c.settings.map fun s => if s.1 = key then (key, value) else s
      else c.settings ++ [(key, value)] }

def addFile (c : Contents) (new : FileRecord) : Contents :=
  { c with
    files := c.files ++ [⟨c.lastFile + 1, new.path, new.kind, new.stamp, new.checksum, new.runtime⟩]
    lastFile := c.lastFile + 1 }

def mergedFile (c : Contents) (new : FileRecord) : Contents :=
  if (c.file? new.path).isSome then
    { c with
      files := c.files.map fun f => if f.path = new.path then f.merge new else f
      lastFile := c.lastFile + 1 }
  else c.addFile new

def mergeFile (c : Contents) (new : FileRecord) : Except RowFault Contents :=
  numbered c.lastFile (.ok (c.mergedFile new))

def ensuredFile (c : Contents) (path : String) : Contents :=
  if (c.file? path).isSome then { c with lastFile := c.lastFile + 1 } else c.addFile { path }

def ensureFile (c : Contents) (path : String) : Except RowFault Contents :=
  numbered c.lastFile (.ok (c.ensuredFile path))

def stampFile (c : Contents) (id : Int) (stamp checksum : String) : Contents :=
  { c with files := c.files.map fun f => if f.id = id then { f with stamp, checksum } else f }

def recordArtifact (c : Contents) (new : ArtifactRow) : Except RowFault Contents :=
  if (c.artifact? new.fileId).isSome then
    .ok { c with artifacts := c.artifacts.map fun a => if a.fileId = new.fileId then new else a }
  else if c.hasFile new.fileId then .ok { c with artifacts := c.artifacts ++ [new] }
  else .error .foreignKey

def touchArtifact (c : Contents) (fileId mtime : Int) : Contents :=
  { c with artifacts := c.artifacts.map fun a => if a.fileId = fileId then { a with mtime } else a }

def dropDependencies (c : Contents) (artifactId : Int) : Contents :=
  { c with dependencies := c.dependencies.filter (·.artifactId ≠ artifactId) }

def putDependency (c : Contents) (new : DependencyRow) : Except RowFault Contents :=
  if c.hasFile new.artifactId && c.hasFile new.fileId then
    .ok { c with
      dependencies :=
        (c.dependencies.filter fun d => !(d.artifactId = new.artifactId && d.fileId = new.fileId)) ++ [new] }
  else .error .foreignKey

/-! Entities -/

/-- An entity that is there already keeps its id and gets the new kind. -/
def mergedEntity (c : Contents) (name kind : String) (fileId line column : Int) : Except RowFault Contents :=
  if (c.entityAt? name fileId line column).isSome then
    .ok { c with
      entities := c.entities.map fun e =>
        if e.name = name && e.fileId = fileId && e.line = line && e.column = column then { e with kind } else e
      lastEntity := c.lastEntity + 1 }
  else if c.hasFile fileId then
    .ok { c with
      entities := c.entities ++ [⟨c.lastEntity + 1, name, kind, fileId, line, column⟩]
      lastEntity := c.lastEntity + 1 }
  else .error .foreignKey

def putEntity (c : Contents) (name kind : String) (fileId line column : Int) : Except RowFault Contents :=
  numbered c.lastEntity (c.mergedEntity name kind fileId line column)

def putDeclaration (c : Contents) (new : DeclarationRow) : Except RowFault Contents :=
  if c.hasEntity new.entityId && c.hasFile new.artifactId then
    .ok { c with declarations := (c.declarations.filter (·.entityId ≠ new.entityId)) ++ [new] }
  else .error .foreignKey

/-- The link names an entity that exists, and the key that it awaits lies in a file that exists. -/
def allows (c : Contents) (l : StoredLink) : Bool :=
  l.id.all c.hasEntity && l.pending.fileId.all c.hasFile

def addedReference (c : Contents) (new : ReferenceRecord) : Except RowFault Contents :=
  if c.allows new.target && c.allows new.scope && c.hasFile new.artifactId && c.hasFile new.fileId then
    .ok { c with
      references := c.references ++ [{ new with id := c.lastReference + 1 }]
      lastReference := c.lastReference + 1 }
  else .error .foreignKey

def addReference (c : Contents) (new : ReferenceRecord) : Except RowFault Contents :=
  numbered c.lastReference (c.addedReference new)

def putParameter (c : Contents) (new : ParameterRow) : Except RowFault Contents :=
  if c.hasEntity new.ownerId && c.allows new.parameter && c.hasFile new.artifactId then
    .ok { c with
      parameters :=
        (c.parameters.filter fun p => !(p.ownerId = new.ownerId && p.ordinal = new.ordinal)) ++ [new] }
  else .error .foreignKey

/-! Tables -/

/-- Some row names an entity. -/
def namesEntities (c : Contents) : Bool :=
  !c.declarations.isEmpty || !c.parameters.isEmpty ||
    c.references.any fun r => r.target.id.isSome || r.scope.id.isSome

/-- Some row names a file and would outlive it. -/
def namesFiles (c : Contents) : Bool :=
  !c.entities.isEmpty || !c.declarations.isEmpty || !c.references.isEmpty || !c.parameters.isEmpty

/-- Takes a table out with its rows. Artifacts and their dependencies go with the files; other rows that name a row of
the table keep it from going. -/
def dropTable (c : Contents) (name : String) : Except RowFault Contents :=
  let rest := { c with tables := c.tables.filter (· ≠ name) }
  if !c.tables.contains name then .error (.noSuchTable name)
  else match Table.all.find? (·.name = name) with
    | none => .ok rest
    | some .settings => .ok { rest with settings := [] }
    | some .files =>
      if c.namesFiles then .error .foreignKey
      else .ok { rest with files := [], artifacts := [], dependencies := [], lastFile := 0 }
    | some .artifacts => .ok { rest with artifacts := [] }
    | some .dependencies => .ok { rest with dependencies := [] }
    | some .entities =>
      if c.namesEntities then .error .foreignKey else .ok { rest with entities := [], lastEntity := 0 }
    | some .declarations => .ok { rest with declarations := [] }
    | some .references => .ok { rest with references := [], lastReference := 0 }
    | some .parameters => .ok { rest with parameters := [] }

end Contents

end Crossref
