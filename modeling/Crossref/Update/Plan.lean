/-
What an update has to do. Every artifact is looked at once, at its first mention, and gets one verdict: it is skipped,
it cannot be read, it is up to date (perhaps with a new time), or it is stale. An artifact is up to date if its time
is the recorded one, or else if its checksum is.
-/
import Crossref.Digest
import Crossref.FileTree
import Crossref.Store.Query

namespace Crossref

/-- An artifact as it is handed to an update. -/
structure ArtifactFile where
  path : String
  runtime : Bool := false
  deriving DecidableEq, Repr

inductive FileErrorKind where
  | io
  | parse
  deriving DecidableEq, Repr

def FileErrorKind.text : FileErrorKind → String
  | .io => "io"
  | .parse => "parse"

/-- The failure of one artifact; the line is zero if there is none. -/
structure FileError where
  path : String
  kind : FileErrorKind
  message : String
  line : Nat
  deriving DecidableEq, Repr

def FileError.ofPath (path : String) (e : PathError) : FileError :=
  ⟨path, .io, s!"cannot read artifact: {e.message}", 0⟩

structure StaleArtifact where
  artifact : ArtifactFile
  mtime : Int
  isNew : Bool
  deriving DecidableEq, Repr

structure UpdatePlan where
  stale : List StaleArtifact := []
  upToDate : List String := []
  /-- Artifacts with the recorded content and a new time. -/
  touched : List (String × Int) := []
  runtimeSkipped : List String := []
  errors : List FileError := []
  deriving DecidableEq, Repr

inductive Verdict where
  | runtime
  | unreadable (error : FileError)
  | stale (mtime : Int) (isNew : Bool)
  | upToDate
  | touched (mtime : Int)
  deriving DecidableEq, Repr

namespace Update

/-- The recorded time and checksum of the artifacts in the store, by path. -/
abbrev Stamps := List (String × Int × String)

/-- The artifact under the path by which it is recorded: absolute, so that one file has one record. -/
def locate (t : FileTree) (file : ArtifactFile) : Except Failure ArtifactFile :=
  (t.resolve file.path).map fun place => { file with path := slashed (Path.absolute place) }

/-- The first mention of each path. -/
def distinct (files : List ArtifactFile) : List ArtifactFile :=
  files.foldl (fun seen f => if seen.any (·.path = f.path) then seen else seen ++ [f]) []

def verdict (t : FileTree) (stamps : Stamps) (includeRuntime : Bool) (a : ArtifactFile) : Verdict :=
  if a.runtime && !includeRuntime then .runtime
  else match t.stat a.path, stamps.lookup a.path with
    | .error e, _ => .unreadable (.ofPath a.path e)
    | .ok mtime, none => .stale mtime true
    | .ok mtime, some (recorded, checksum) =>
      if mtime = recorded then .upToDate
      else match t.read a.path with
        | .error e => .unreadable (.ofPath a.path e)
        | .ok content => if Digest.checksum content = checksum then .touched mtime else .stale mtime false

/-- Files an artifact under its verdict. -/
def addVerdict (plan : UpdatePlan) (a : ArtifactFile) : Verdict → UpdatePlan
  | .runtime => { plan with runtimeSkipped := plan.runtimeSkipped ++ [a.path] }
  | .unreadable e => { plan with errors := plan.errors ++ [e] }
  | .stale mtime isNew => { plan with stale := plan.stale ++ [⟨a, mtime, isNew⟩] }
  | .upToDate => { plan with upToDate := plan.upToDate ++ [a.path] }
  | .touched mtime =>
    { plan with upToDate := plan.upToDate ++ [a.path], touched := plan.touched ++ [(a.path, mtime)] }

def planFor (t : FileTree) (stamps : Stamps) (includeRuntime : Bool) (files : List ArtifactFile) : UpdatePlan :=
  (distinct files).foldl (fun plan a => addVerdict plan a (verdict t stamps includeRuntime a)) {}

/-- A statement that is refused while the store is read for a plan. -/
def readFailure (store : String) : Failure → Failure
  | .row fault => .connection (.cannotRead store fault)
  | e => e

/-- Plans an update of a store, which has to hold an index of this version. -/
def plan (t : FileTree) (files : List ArtifactFile) (includeRuntime : Bool) : StoreM UpdatePlan := do
  let path := (← get).path
  let stamps ← tryCatch (do Store.checkSchema; Store.artifactStamps) fun e => throw (readFailure path e)
  match files.mapM (locate t) with
  | .ok located => pure (planFor t stamps includeRuntime located)
  | .error e => throw e

end Update

end Crossref
