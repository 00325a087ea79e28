/-
Reading an artifact. The text is read line by line into a draft; blank lines and lines that start with two hyphens are
passed over. A refused line ends the reading with the number of the line, the reason, and the unit as far as it was
read. A number too long to be read ends it without a unit.
-/
import Crossref.Artifact.Record
import Crossref.Artifact.Scope
import Crossref.Digest
import Crossref.Path
import Crossref.Text.Line
import Crossref.Text.Numeral
import Crossref.Text.Utf8

namespace Crossref.Artifact

open Text (Bytes NumeralError quoted)

/-- Why an artifact is refused. -/
inductive Reason where
  | notUtf8
  | missingVersion
  | expectedVersion (tag : Char)
  | unknownRecord (tag : Char)
  | truncatedRecord (tag : Char)
  | duplicateVersion
  | malformedVersion (body : String)
  | unitFields
  | malformedChecksum (text : String)
  | dependencyFields
  | malformedStamp (text : String)
  | sectionFields
  | unknownDependency (index : Int)
  | sectionMismatch (file index dependency : String)
  | outsideSection
  | truncatedEntity
  | strayContinuation
  | malformedReference (token : String)
  | unknownReferenceKind (tag : Char) (token : String)
  deriving DecidableEq, Repr

def Reason.message : Reason → String
  | .notUtf8 => "artifact is not valid UTF-8"
  | .missingVersion => "missing version header"
  | .expectedVersion tag => s!"expected version header, got {quoted tag.toString} record"
  | .unknownRecord tag => s!"unknown record type {quoted tag.toString}"
  | .truncatedRecord tag => s!"truncated {tag} record"
  | .duplicateVersion => "duplicate version header"
  | .malformedVersion body => s!"malformed version {quoted body}"
  | .unitFields => "unit record needs <unit> <source-file> <checksum>"
  | .malformedChecksum text => s!"malformed checksum {quoted text}"
  | .dependencyFields => "dependency record needs <file> <stamp> <checksum> [<unit>]"
  | .malformedStamp text => s!"malformed time stamp {quoted text}"
  | .sectionFields => "xref section needs <dep-index> <file>"
  | .unknownDependency index => s!"unknown dependency index {index}"
  | .sectionMismatch file index dependency =>
    s!"section file {quoted file} does not match dependency {index} ({quoted dependency})"
  | .outsideSection => "entity line outside an xref section"
  | .truncatedEntity => "truncated entity line"
  | .strayContinuation => "continuation line without an entity line"
  | .malformedReference token => s!"malformed reference {quoted token}"
  | .unknownReferenceKind tag token => s!"unknown reference kind {quoted tag.toString} in {quoted token}"

inductive Fault where
  | refused (reason : Reason)
  | numeral (error : NumeralError)
  deriving DecidableEq, Repr

/-- A declared entity before it is known which files the unit owns. -/
structure Declared where
  key : EntityKey
  kind : String
  libraryLevel : Bool
  deriving DecidableEq, Repr

/-- A parameter before its declaration is looked for. -/
structure Passed where
  owner : EntityKey
  location : Location
  mode : ParameterMode
  ordinal : Nat
  deriving DecidableEq, Repr

/-- The entity line that receives references: its key, the file they are in, and how many parameters it has so far. -/
structure OpenEntity where
  key : EntityKey
  file : String
  parameters : Nat
  deriving DecidableEq, Repr

/-- An artifact while it is read. -/
structure Draft where
  path : String
  checksum : String
  version : Option String := none
  unitName : String := ""
  sourceFiles : List String := []
  dependencies : List Dependency := []
  declared : List Declared := []
  uses : List Use := []
  passed : List Passed := []
  sectionFile : Option String := none
  entity : Option OpenEntity := none
  deriving DecidableEq, Repr

/-- A later declaration of a key replaces the earlier one and keeps its place. -/
def Draft.declare (d : Draft) (new : Declared) : Draft :=
  { d with
    declared :=
      if d.declared.any (·.key = new.key) then d.declared.map fun old => if old.key = new.key then new else old
      else d.declared ++ [new] }

def Draft.keys (d : Draft) : List EntityKey :=
  d.declared.map (·.key)

/-- The key declared at a location, the last one if there are several, or else the key without a name. -/
def Draft.keyAt (d : Draft) (l : Location) : EntityKey :=
  ((d.keys.filter (·.location = l)).getLast?).getD l.key

/-- The unit as far as it is read. -/
def Draft.toUnit (d : Draft) : CompilationUnit where
  path := d.path
  unitName := d.unitName
  version := d.version.getD ""
  checksum := d.checksum
  sourceFiles := d.sourceFiles
  dependencies := d.dependencies
  declarations := d.declared.map fun e => ⟨e.key, e.kind, e.libraryLevel, d.sourceFiles.contains e.key.file⟩
  references :=
    let table := scopeTable d.keys d.uses
    d.uses.map fun u => ⟨u.target, u.location, u.kind, scopeOf table u.location⟩
  parameters := d.passed.map fun p => ⟨p.owner, d.keyAt p.location, p.mode, p.ordinal⟩

/-- A step of reading: what was read before a fault stays in the draft. -/
abbrev ReadM := ExceptT Fault (StateM Draft)

namespace ReadM

def refuse {α : Type} (reason : Reason) : ReadM α :=
  throw (.refused reason)

def number (text : List Char) : ReadM Int :=
  match Text.readInt text with
  | .ok n => pure n
  | .error e => throw (.numeral e)

/-- The dependency with a written index; indexes start at one. -/
def dependencyAt (text : List Char) : ReadM Dependency := do
  let index ← number text
  let d ← get
  match if 1 ≤ index then d.dependencies[(index - 1).toNat]? else none with
  | some dependency => pure dependency
  | none => refuse (.unknownDependency index)

def checkChecksum (text : List Char) : ReadM PUnit :=
  if isChecksum text then pure () else refuse (.malformedChecksum (String.ofList text))

def versionRecord (body : List Char) : ReadM PUnit := do
  if (← get).version.isSome then refuse .duplicateVersion
  match version? body with
  | none => refuse (.malformedVersion (String.ofList body))
  | some v => modify fun d => { d with version := some (String.ofList v) }

def unitRecord (body : List Char) : ReadM PUnit := do
  match Text.words body with
  | [unitName, source, checksum] =>
    checkChecksum checksum
    let source := slashed (String.ofList source)
    modify fun d =>
      { d with
        unitName := if d.unitName = "" then String.ofList unitName else d.unitName
        sourceFiles := if d.sourceFiles.contains source then d.sourceFiles else d.sourceFiles ++ [source] }
  | _ => refuse .unitFields

def addDependency (path stamp checksum unitName : List Char) : ReadM PUnit := do
  if !isStamp stamp then refuse (.malformedStamp (String.ofList stamp))
  checkChecksum checksum
  let new : Dependency :=
    { path := slashed (String.ofList path)
      stamp := String.ofList stamp
      checksum := String.ofList (checksum.map Char.toLower)
      unitName := String.ofList unitName }
  modify fun d => { d with dependencies := d.dependencies ++ [new] }

def dependencyRecord (body : List Char) : ReadM PUnit := do
  match Text.words body with
  | [path, stamp, checksum] => addDependency path stamp checksum []
  | [path, stamp, checksum, unitName] => addDependency path stamp checksum unitName
  | _ => refuse .dependencyFields

def sectionRecord (body : List Char) : ReadM PUnit := do
  match Text.words body with
  | [index, file] =>
    let dependency ← dependencyAt index
    let file := slashed (String.ofList file)
    if dependency.path ≠ file then refuse (.sectionMismatch file (String.ofList index) dependency.path)
    modify fun d => { d with sectionFile := some file, entity := none }
  | _ => refuse .sectionFields

/-- Moves the references of the open entity line to another file. -/
def moveTo (index : List Char) : ReadM PUnit := do
  let dependency ← dependencyAt index
  modify fun d => { d with entity := d.entity.map fun e => { e with file := dependency.path } }

/-- Records a mention of the open entity under its tag. -/
def recordMention (m : Mention) (token : List Char) : ReadM PUnit := do
  let line ← number m.line
  let column ← number m.column
  match (← get).entity with
  | none => refuse .strayContinuation
  | some e =>
    let location : Location := ⟨e.file, line, column⟩
    match parameterModes.lookup m.tag, referenceKinds.lookup m.tag with
    | some mode, _ =>
      modify fun d =>
        { d with
          entity := some { e with parameters := e.parameters + 1 }
          passed := d.passed ++ [⟨e.key, location, mode, e.parameters + 1⟩] }
    | none, some kind => modify fun d => { d with uses := d.uses ++ [⟨e.key, location, kind⟩] }
    | none, none => refuse (.unknownReferenceKind m.tag (String.ofList token))

def mention (token : List Char) : ReadM PUnit := do
  match Mention.ofText? token with
  | none => refuse (.malformedReference (String.ofList token))
  | some m =>
    if let some index := m.dependency then moveTo index
    recordMention m token

def entityLine (s : List Char) : ReadM PUnit := do
  match (← get).sectionFile with
  | none => refuse .outsideSection
  | some file =>
    match EntityHead.ofText? s with
    | none => refuse .truncatedEntity
    | some head =>
      let line ← number head.line
      let column ← number head.column
      let key : EntityKey := ⟨String.ofList head.name, file, line, column⟩
      modify fun d =>
        { d.declare ⟨key, entityKind head.tag, head.libraryLevel⟩ with entity := some ⟨key, file, 0⟩ }
      (Text.words head.rest).forM mention

def continuationLine (s : List Char) : ReadM PUnit := do
  if (← get).entity.isNone then refuse .strayContinuation
  (Text.words s).forM mention

/-- The records whose tag is a capital letter; those for annotations and warnings carry nothing the index keeps. -/
def headerRecord (tag : Char) (body : List Char) : ReadM PUnit :=
  match tag with
  | 'V' => versionRecord body
  | 'U' => unitRecord body
  | 'D' => dependencyRecord body
  | 'X' => sectionRecord body
  | _ => pure ()

/-- Reads one line without blanks at its end. -/
def record : List Char → ReadM PUnit
  | [] => pure ()
  | tag :: rest => do
    if (← get).version.isNone && tag ≠ 'V' then refuse (.expectedVersion tag)
    if Text.isDigitLike tag then entityLine (tag :: rest)
    else if tag = '.' then continuationLine rest
    else if !(['V', 'U', 'D', 'X', 'A', 'W'].contains tag) then refuse (.unknownRecord tag)
    else match rest with
      | ' ' :: c :: body => headerRecord tag (Text.trim (c :: body))
      | _ => refuse (.truncatedRecord tag)

end ReadM

def isComment : List Char → Bool
  | '-' :: '-' :: _ => true
  | _ => false

/-- Lines that hold no record. -/
def isSkipped (line : List Char) : Bool :=
  line.all Text.isBlank || isComment line

/-- The failure to read an artifact. -/
inductive ReadError where
  | refused (line : Nat) (reason : Reason) (sofar : Option CompilationUnit)
  | numeral (error : NumeralError)
  deriving DecidableEq, Repr

def ReadError.ofFault (d : Draft) (line : Nat) : Fault → ReadError
  | .refused reason => .refused line reason (some d.toUnit)
  | .numeral e => .numeral e

/-- Reads the lines into the draft; `number` is the number of the last line before them. -/
def Draft.readLines (d : Draft) (number : Nat) : List (List Char) → Except ReadError CompilationUnit
  | [] => if d.version.isNone then .error (.refused number .missingVersion (some d.toUnit)) else .ok d.toUnit
  | line :: rest =>
    if isSkipped line then d.readLines (number + 1) rest
    else match (ReadM.record (Text.trimEnd line)).run.run d with
      | (.ok _, d) => d.readLines (number + 1) rest
      | (.error fault, d) => .error (.ofFault d (number + 1) fault)

/-- Reads the text of an artifact; path and checksum only label the result. -/
def readText (path checksum : String) (text : List Char) : Except ReadError CompilationUnit :=
  ({ path, checksum : Draft }).readLines 0 (Text.lines text)

/-- Reads the content of an artifact file. A bad byte is reported on its line, counted by line feeds. -/
def readBytes (path : String) (content : Bytes) : Except ReadError CompilationUnit :=
  match Text.decodeUtf8 content with
  | .error e => .error (.refused (e.before.count 10 + 1) .notUtf8 none)
  | .ok text => readText path (Digest.checksum content) text

end Crossref.Artifact
