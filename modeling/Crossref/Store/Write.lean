/-
Writing rows: files, artifacts, dependencies, entities, and what artifacts say about them.
-/
import Crossref.Store.Basic

namespace Crossref.Store

open StoreM

/-! Settings -/

def setSetting (key value : String) : StoreM PUnit :=
  execute [.settings] [] [] fun c => .ok (c.setSetting key value)

/-- Records the time of an update, given in milliseconds. -/
def markIndexed (now : Int) : StoreM PUnit :=
  setSetting Contents.indexedKey s!"{now / 1000}.{now % 1000 / 100}"

/-! Files -/

/-- The id recorded for a path, and zero if there is none. -/
def fileIdOrZero (path : String) : StoreM Int :=
  query [.files] [] fun c => (c.fileId? path).getD 0

/-- Records a file or changes its record; answers its id. -/
def putFile (new : FileRecord) : StoreM Int := do
  execute [.files] [] [] (·.mergeFile new)
  fileIdOrZero new.path

/-- The id of a path, which is recorded as a source file if it is new. -/
def ensureFile (path : String) : StoreM Int := do
  execute [.files] [] [] (·.ensureFile path)
  fileIdOrZero path

/-- Records the stamp and the checksum that an artifact saw; kind and flags stay as they are. -/
def stampFile (path stamp checksum : String) : StoreM Int := do
  let id ← ensureFile path
  execute [.files] [] [id] fun c => .ok (c.stampFile id stamp checksum)
  pure id

/-! Artifacts -/

def recordArtifact (new : ArtifactRow) : StoreM PUnit :=
  execute [.artifacts] [.files] [new.fileId] (·.recordArtifact new)

/-- Changes the recorded time of an artifact whose content did not change. -/
def touchArtifact (fileId mtime : Int) : StoreM PUnit :=
  execute [.artifacts] [] [fileId] fun c => .ok (c.touchArtifact fileId mtime)

/-- Replaces what is recorded about the files that an artifact depends on. -/
def replaceDependencies (artifactId : Int) (new : List DependencyRow) : StoreM PUnit := do
  execute [.dependencies] [.files] [artifactId] fun c => .ok (c.dropDependencies artifactId)
  executeAll [.dependencies] [.files] (fun d => [d.artifactId, d.fileId]) (fun d c => c.putDependency d) new

/-- Takes out every row that came from an artifact; the entities themselves stay. -/
def purgeArtifact (artifactId : Int) : StoreM PUnit := do
  execute [.parameters] [.files, .entities] [artifactId] fun c =>
    .ok { c with parameters := c.parameters.filter (·.artifactId ≠ artifactId) }
  execute [.references] [.files, .entities] [artifactId] fun c =>
    .ok { c with references := c.references.filter (·.artifactId ≠ artifactId) }
  execute [.declarations] [.files, .entities] [artifactId] fun c =>
    .ok { c with declarations := c.declarations.filter (·.artifactId ≠ artifactId) }
  execute [.dependencies] [.files] [artifactId] fun c => .ok (c.dropDependencies artifactId)
  execute [.artifacts] [.files] [artifactId] fun c =>
    .ok { c with artifacts := c.artifacts.filter (·.fileId ≠ artifactId) }

/-! Entities -/

/-- Records an entity or changes its kind; the id of an entity never changes. -/
def putEntity (name kind : String) (fileId line column : Int) : StoreM Int := do
  execute [.entities] [.files] [fileId, line, column] (·.putEntity name kind fileId line column)
  query [.entities] [fileId, line, column] fun c =>
    ((c.entityAt? name fileId line column).map (·.id)).getD 0

def putDeclarations (new : List DeclarationRow) : StoreM PUnit :=
  executeAll [.declarations] [.files, .entities] (fun d => [d.entityId, d.artifactId])
    (fun d c => c.putDeclaration d) new

def linkNumbers (l : StoredLink) : List Int :=
  l.id.toList ++ l.pending.fileId.toList ++ l.pending.line.toList ++ l.pending.column.toList

def addReferences (new : List ReferenceRecord) : StoreM PUnit :=
  executeAll [.references] [.files, .entities]
    (fun r => [r.artifactId, r.fileId, r.line, r.column] ++ linkNumbers r.target ++ linkNumbers r.scope)
    (fun r c => c.addReference r) new

def putParameters (new : List ParameterRow) : StoreM PUnit :=
  executeAll [.parameters] [.files, .entities]
    (fun p => [p.ownerId, p.ordinal, p.artifactId] ++ linkNumbers p.parameter) (fun p c => c.putParameter p) new

/-! Tables -/

/-- Takes a table out, unless someone is still reading from the store. -/
def dropTable (name : String) (reading : Bool) : StoreM PUnit := do
  if !(← get).contents.tables.contains name then refuse (.noSuchTable name)
  step [] fun c => do
    let rest ← c.dropTable name
    if reading then throw .tableInUse else pure rest

end Crossref.Store
