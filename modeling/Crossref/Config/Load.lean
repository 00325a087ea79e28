/-
Loading the settings: the layer of the user, the layer of the project over it, placeholders filled in, and variables
over everything. A layer that is not there, or is not a mapping, says nothing.
-/
import Crossref.Config.Environment
import Crossref.Config.Layer
import Crossref.FileTree
import Crossref.Yaml.Document

namespace Crossref.Config

inductive LoadError where
  | path (error : PathError)
  /-- A file is not text: the bytes that are none, where they begin, and why. -/
  | undecodable (bytes : Text.Bytes) (start : Nat) (fault : Text.Utf8Fault)
  | document (fault : Yaml.Fault)
  /-- A key at the top is not a text. -/
  | keyNotText
  | rejected (rejection : Rejection)
  deriving DecidableEq, Repr

/-- Says which bytes cannot be decoded. -/
def undecodableMessage (bytes : Text.Bytes) (start : Nat) (fault : Text.Utf8Fault) : String :=
  let codec := "'utf-8' codec can't decode "
  match bytes with
  | [b] => codec ++ "byte 0x" ++ String.ofList (Text.hex 2 b.toNat) ++ s!" in position {start}: {fault.message}"
  | _ => codec ++ s!"bytes in position {start}-{start + bytes.length - 1}: {fault.message}"

/-- Where variables come from and which files are read. -/
structure Surroundings where
  files : FileTree
  environment : Variables
  /-- The directory of the user. -/
  home : String

/-- Line ends of other systems become line feeds. -/
def normalLineEnds : List Char → List Char
  | '\r' :: '\n' :: r => '\n' :: normalLineEnds r
  | '\r' :: r => '\n' :: normalLineEnds r
  | c :: r => c :: normalLineEnds r
  | [] => []

/-- Reads a text. If its last sequence is cut short and `pieces` says that it is read in pieces, the sequence counts
as a piece of its own. -/
def decodeText (pieces : Bool) (content : Text.Bytes) : Except LoadError (List Char) :=
  match Text.decodeUtf8 content with
  | .ok chars => .ok (normalLineEnds chars)
  | .error e =>
    let cut := pieces && e.fault = .unexpectedEnd
    .error (.undecodable e.sequence (if cut then 0 else e.before.length) e.fault)

def layerOf (v : Value) : Mapping :=
  match v with
  | .mapping m => m
  | _ => []

/-- The layer in a file. -/
def readLayer (t : FileTree) (path : Path) : Except LoadError Mapping :=
  if !t.exists? path then .ok []
  else match t.read path.toString with
    | .error e => .error (.path e)
    | .ok content => do
      let text ← decodeText true content
      match Yaml.readDocument text with
      | .ok v => .ok (layerOf v)
      | .error fault => .error (.document fault)

/-- The file of a layer below a directory. -/
def layerPath (directory : String) : Path :=
  ((Path.ofString directory).child ".xrefdb").child "config.yaml"

/-- The assignments of the file in the working directory, if there is one. -/
def readAssignments (s : Surroundings) : Except LoadError (List Assignment) :=
  let path := Path.ofString ".env"
  if !s.files.isFile path then .ok []
  else match s.files.read ".env" with
    | .error e => .error (.path e)
    | .ok content => (decodeText false content).map (Assignment.ofChars s.environment)

def ofCheck {α : Type} : Except Rejection α → Except LoadError α
  | .ok a => .ok a
  | .error r => .error (.rejected r)

/-- The settings that variables replace. -/
def readOverrides (s : Surroundings) : Except LoadError Overrides := do
  let file ← readAssignments s
  ofCheck (Overrides.ofVariables s.environment file)

/-- Every key at the top is a text. -/
def hasTextKeys (m : Mapping) : Bool :=
  m.all fun (key, _) => match key with
    | .text _ => true
    | _ => false

/-- Joins the layers. -/
def readLayers (s : Surroundings) (project : String) : Except LoadError Mapping := do
  let user ← readLayer s.files (layerPath s.home)
  let own ← readLayer s.files (layerPath project)
  pure (Mapping.over own (Mapping.over user []))

def ofLayers (environment : Variables) (m : Mapping) : Except LoadError Settings :=
  if !hasTextKeys m then .error .keyNotText
  else ofCheck (Checked.of .all (readSettings (expandEntries environment m)))

/-- Loads the settings for a project in a directory. -/
def load (s : Surroundings) (project : String) : Except LoadError Settings := do
  let settings ← ofLayers s.environment (← readLayers s project)
  let overrides ← readOverrides s
  if overrides.isEmpty then pure settings
  else
    let index ← ofCheck (settings.index.override overrides)
    pure { settings with index }

end Crossref.Config
