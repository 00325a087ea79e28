/-
The artifacts that a command names. A directory stands for the files below it whose suffix is one of those asked for,
in the order of their segments; anything else stands for itself.
-/
import Crossref.Text.Lowercase
import Crossref.Update.Plan

namespace Crossref.CommandLine

/-- The first segments that differ decide; a place comes before those below it. -/
def segmentsLe : List String → List String → Bool
  | [], _ => true
  | _ :: _, [] => false
  | s :: ss, t :: ts => if s = t then segmentsLe ss ts else s < t

def below (path : Path) (segments : List String) : Path :=
  { path with segments := path.segments ++ segments }

def hasSuffix (suffixes : List String) (path : Path) : Bool :=
  suffixes.contains (Text.lowercase path.suffix)

/-- What one path stands for. -/
def expandPath (t : FileTree) (suffixes : List String) (path : Path) : List Path :=
  match t.find path with
  | .ok (place, .directory) =>
    let found := (t.filesBelow place).mergeSort segmentsLe
    (found.map (below path)).filter (hasSuffix suffixes)
  | _ => [path]

def collect (t : FileTree) (paths : List Path) (suffixes : List String) (runtime : Bool) : List ArtifactFile :=
  (paths.flatMap (expandPath t suffixes)).map fun p => ⟨p.toString, runtime⟩

end Crossref.CommandLine
