/-
Carrying out a plan. The stale artifacts are read in order, until the update is cancelled. Then, as one transaction, the
old rows of those artifacts go, the units are linked as one batch and written, links to entities that lost their
declaration become keys again, orphans go, and keys of entities that are there now become links. An artifact that cannot
be read keeps no rows, so that the next update looks at it again.
-/
import Crossref.Artifact.Reader
import Crossref.Resolver
import Crossref.Store.Maintenance
import Crossref.Store.Write
import Crossref.Update.Plan
import Crossref.Update.Progress

namespace Crossref

/-- The stale artifacts after they were read. -/
structure ReadBatch where
  parsed : List (StaleArtifact × CompilationUnit) := []
  failed : List (StaleArtifact × FileError) := []
  cancelled : Nat := 0
  progress : List Progress := []

structure UpdateStats where
  added : Nat
  updated : Nat
  upToDate : Nat
  runtimeSkipped : Nat
  cancelled : Nat
  relinked : Nat
  pruned : Nat
  staged : Bool
  errors : List FileError
  stats : Stats
  deriving DecidableEq, Repr

def UpdateStats.merged (s : UpdateStats) : Nat :=
  s.added + s.updated

namespace Update

/-- Reads one artifact. A number too long to be read is a failure of the whole update. -/
def readArtifact (t : FileTree) (path : String) : Except Failure (Except FileError CompilationUnit) :=
  match t.read path with
  | .error e => .ok (.error (.ofPath path e))
  | .ok content =>
    match Artifact.readBytes path content with
    | .ok u => .ok (.ok u)
    | .error (.refused line reason _) => .ok (.error ⟨path, .parse, reason.message, line⟩)
    | .error (.numeral e) => .error (.numeral e)

/-- Reads the stale artifacts from the one with number `i` on; `cancel` is asked before each, with the number of those
before it. -/
def readFrom (t : FileTree) (cancel : Nat → Bool) (total i : Nat) : List StaleArtifact → Except Failure ReadBatch
  | [] => .ok {}
  | s :: rest =>
    if cancel i then .ok { cancelled := rest.length + 1 }
    else do
      let outcome ← readArtifact t s.artifact.path
      let batch ← readFrom t cancel total (i + 1) rest
      let batch := { batch with progress := ⟨i + 1, total, s.artifact.path⟩ :: batch.progress }
      match outcome with
      | .ok u => pure { batch with parsed := (s, u) :: batch.parsed }
      | .error e => pure { batch with failed := (s, e) :: batch.failed }

def readStale (t : FileTree) (cancel : Nat → Bool) (stale : List StaleArtifact) : Except Failure ReadBatch :=
  readFrom t cancel stale.length 0 stale

/-! Writing a linked unit -/

def registerDeclaration (d : Declaration) : StoreM Int := do
  let file ← Store.ensureFile d.key.file
  Store.putEntity d.key.name d.kind file d.key.line d.key.column

/-- The ids of the files that the rows of one unit name. -/
abbrev FileIds := List (String × Int)

/-- The id of a file, asked for once per unit. -/
def fileId (path : String) : StateT FileIds StoreM Int := do
  match (← get).lookup path with
  | some id => pure id
  | none =>
    let id ← Store.ensureFile path
    modify (· ++ [(path, id)])
    pure id

def storedLink : Link → StateT FileIds StoreM StoredLink
  | .linked id => pure { id := some id }
  | .pending key => do
    let file ← fileId key.file
    pure { pending := ⟨some key.name, some file, some key.line, some key.column⟩ }

def referenceRow (artifactId : Int) (r : LinkedReference) : StateT FileIds StoreM ReferenceRecord := do
  let file ← fileId r.location.file
  let target ← storedLink r.target
  let scope ← r.scope.mapM storedLink
  pure ⟨target, artifactId, file, r.location.line, r.location.column, r.kind.text, scope.getD {}⟩

def parameterRow (artifactId : Int) (p : LinkedParameter) : StateT FileIds StoreM ParameterRow := do
  let parameter ← storedLink p.parameter
  pure ⟨p.owner, p.ordinal, parameter, p.mode.text, artifactId⟩

/-- What a unit says about one of its source files; of two dependencies on one file the later counts. -/
def sourceRecord (u : CompilationUnit) (runtime : Bool) (path : String) : FileRecord :=
  match u.dependencies.reverse.find? (·.path = path) with
  | some d => { path, stamp := d.stamp, checksum := d.checksum, runtime }
  | none => { path, runtime }

def writeFiles (a : ArtifactFile) (u : CompilationUnit) : StoreM Int := do
  let artifactId ← Store.putFile { path := a.path, kind := "artifact", checksum := u.checksum, runtime := a.runtime }
  u.sourceFiles.forM fun path => do
    let _ ← Store.putFile (sourceRecord u a.runtime path)
  let dependencies ← u.dependencies.mapM fun d => do
    let file ← Store.stampFile d.path d.stamp d.checksum
    pure (⟨artifactId, file, d.stamp, d.checksum⟩ : DependencyRow)
  Store.replaceDependencies artifactId dependencies
  pure artifactId

def writeReferences (artifactId : Int) (u : LinkedUnit) : StateT FileIds StoreM PUnit := do
  let references ← u.references.mapM (referenceRow artifactId)
  Store.addReferences references

def writeParameters (artifactId : Int) (u : LinkedUnit) : StateT FileIds StoreM PUnit := do
  let parameters ← u.parameters.mapM (parameterRow artifactId)
  Store.putParameters parameters

/-- Writes everything that a linked unit says. -/
def writeUnit (now : Int) (s : StaleArtifact) (u : LinkedUnit) : StoreM PUnit := do
  let artifactId ← writeFiles s.artifact u.unit
  Store.putDeclarations (u.declarations.map fun (id, d) => ⟨id, artifactId, d.libraryLevel⟩)
  StateT.run' (do writeReferences artifactId u; writeParameters artifactId u) []
  Store.recordArtifact ⟨artifactId, u.unit.unitName, s.mtime, u.unit.checksum, now⟩

/-! Merging a batch -/

/-- Takes out the rows of an artifact that is recorded. -/
def purge (path : String) : StoreM PUnit := do
  if let some id ← Store.fileId? path then Store.purgeArtifact id

def touch (path : String) (mtime : Int) : StoreM PUnit := do
  if let some id ← Store.fileId? path then Store.touchArtifact id mtime

/-- What a merge answers: the links made and the orphans taken out afterwards. -/
structure MergeCounts where
  relinked : Nat
  pruned : Nat
  deriving DecidableEq, Repr

/-- The work of a merge, without the transaction around it. -/
def mergeBatch (batch : ReadBatch) (touched : List (String × Int)) (now : Int) : StoreM MergeCounts := do
  (batch.parsed.map (·.1) ++ batch.failed.map (·.1)).forM fun s => purge s.artifact.path
  touched.forM fun (path, mtime) => touch path mtime
  let linked ← linkBatch registerDeclaration (some Store.findEntity) (batch.parsed.map (·.2))
  ((batch.parsed.map (·.1)).zip linked).forM fun (s, u) => writeUnit now s u
  let _ ← Store.detachUndeclared
  let pruned ← Store.pruneOrphans
  let relinked ← Store.relinkPending
  if !batch.parsed.isEmpty || !batch.failed.isEmpty || !touched.isEmpty then Store.markIndexed now
  pure { relinked, pruned }

/-- A statement that is refused during a merge. -/
def mergeFailure (store : String) : Failure → Failure
  | .row fault => .connection (.mergeFailed store fault)
  | e => e

/-- Merges what was read of a plan. -/
def merge (plan : UpdatePlan) (batch : ReadBatch) (now : Int) : StoreM UpdateStats := do
  let path := (← get).path
  let counts ← tryCatch (StoreM.transaction (mergeBatch batch plan.touched now)) fun e => throw (mergeFailure path e)
  let stats ← Store.stats
  let added := batch.parsed.countP (·.1.isNew)
  pure
    { added
      updated := batch.parsed.length - added
      upToDate := plan.upToDate.length
      runtimeSkipped := plan.runtimeSkipped.length
      cancelled := batch.cancelled
      relinked := counts.relinked
      pruned := counts.pruned
      staged := false
      errors := plan.errors ++ batch.failed.map (·.2)
      stats }

/-- Carries out a plan on a store. -/
def apply (t : FileTree) (cancel : Nat → Bool) (now : Int) (plan : UpdatePlan) :
    StoreM (UpdateStats × List Progress) := do
  match readStale t cancel plan.stale with
  | .error e => throw e
  | .ok batch =>
    let stats ← merge plan batch now
    pure (stats, batch.progress)

end Update

end Crossref
