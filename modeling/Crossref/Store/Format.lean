/-
The written form of a store: a first line that names the form, then one line for each row. The fields of a line are
separated by tabs. In a field a backslash stands for a line feed, a tab or itself, by the letter behind it, and a field
of a backslash and a capital N stands for nothing. The first field of a line says what the line holds.
-/
import Crossref.Store.Contents

namespace Crossref

namespace StoreFormat

/-- One field; `none` stands for nothing. -/
abbrev Field := Option String

/-- The line that every written store begins with. -/
def firstLine : String :=
  "cross-reference store 1"

def escape : List Char → List Char
  | [] => []
  | '\\' :: r => '\\' :: '\\' :: escape r
  | '\n' :: r => '\\' :: 'n' :: escape r
  | '\t' :: r => '\\' :: 't' :: escape r
  | c :: r => c :: escape r

def unescape : List Char → List Char
  | '\\' :: 'n' :: r => '\n' :: unescape r
  | '\\' :: 't' :: r => '\t' :: unescape r
  | '\\' :: '\\' :: r => '\\' :: unescape r
  | c :: r => c :: unescape r
  | [] => []

theorem unescape_escape (s : List Char) : unescape (escape s) = s := by
  induction s with
  | nil => rfl
  | cons c s ih =>
    unfold escape
    split
    · simp_all
    · simp_all [unescape]
    · simp_all [unescape]
    · simp_all [unescape]
    · rename_i h _ _
      simp_all [unescape]

def writeField : Field → String
  | none => "\\N"
  | some s => String.ofList (escape s.toList)

def readField (s : String) : Field :=
  if s = "\\N" then none else some (String.ofList (unescape s.toList))

def writeLine (fields : List Field) : String :=
  "\t".intercalate (fields.map writeField) ++ "\n"

def readLine (line : String) : List Field :=
  (line.splitOn "\t").map readField

/-! Fields of rows -/

def text (s : String) : Field :=
  some s

def number (n : Int) : Field :=
  some (toString n)

def flag (b : Bool) : Field :=
  some (if b then "1" else "0")

def link (l : StoredLink) : List Field :=
  [l.id.bind number, l.pending.name, l.pending.fileId.bind number, l.pending.line.bind number,
    l.pending.column.bind number]

/-- Every line of a written store after the first. -/
def linesOf (c : Contents) : List (List Field) :=
  c.tables.map (fun t => [text "table", text t]) ++
  [[text "last", number c.lastFile, number c.lastEntity, number c.lastReference]] ++
  c.settings.map (fun (key, value) => [text "setting", text key, text value]) ++
  c.files.map (fun f =>
    [text "file", number f.id, text f.path, text f.kind, text f.stamp, text f.checksum, flag f.runtime]) ++
  c.artifacts.map (fun a =>
    [text "artifact", number a.fileId, text a.unitName, number a.mtime, text a.checksum, number a.indexedAt]) ++
  c.dependencies.map (fun d =>
    [text "dependency", number d.artifactId, number d.fileId, text d.stamp, text d.checksum]) ++
  c.entities.map (fun e =>
    [text "entity", number e.id, text e.name, text e.kind, number e.fileId, number e.line, number e.column]) ++
  c.declarations.map (fun d => [text "declaration", number d.entityId, number d.artifactId, flag d.libraryLevel]) ++
  c.references.map (fun r =>
    [text "reference", number r.id, number r.artifactId, number r.fileId, number r.line, number r.column, text r.kind] ++
      link r.target ++ link r.scope) ++
  c.parameters.map (fun p =>
    [text "parameter", number p.ownerId, number p.ordinal, text p.mode, number p.artifactId] ++ link p.parameter)

/-! Reading rows -/

def number? (f : Field) : Option Int :=
  f.bind String.toInt?

/-- A number, or nothing. -/
def optional? : Field → Option (Option Int)
  | none => some none
  | some s => s.toInt?.map some

def flag? (f : Field) : Option Bool :=
  f.map (· = "1")

def link? : List Field → Option StoredLink
  | [id, name, file, line, column] => do
    pure ⟨← optional? id, ⟨name, ← optional? file, ← optional? line, ← optional? column⟩⟩
  | _ => none

/-- Adds what a line holds. -/
def addLine (c : Contents) : List Field → Option Contents
  | [some "table", some t] => some { c with tables := c.tables ++ [t] }
  | [some "last", file, entity, reference] => do
    pure { c with
      lastFile := ← number? file
      lastEntity := ← number? entity
      lastReference := ← number? reference }
  | [some "setting", some key, some value] => some { c with settings := c.settings ++ [(key, value)] }
  | [some "file", id, some path, some kind, some stamp, some checksum, runtime] => do
    pure { c with files := c.files ++ [⟨← number? id, path, kind, stamp, checksum, ← flag? runtime⟩] }
  | [some "artifact", file, some name, mtime, some checksum, indexed] => do
    pure { c with
      artifacts := c.artifacts ++ [⟨← number? file, name, ← number? mtime, checksum, ← number? indexed⟩] }
  | [some "dependency", artifact, file, some stamp, some checksum] => do
    pure { c with dependencies := c.dependencies ++ [⟨← number? artifact, ← number? file, stamp, checksum⟩] }
  | [some "entity", id, some name, some kind, file, line, column] => do
    pure { c with
      entities := c.entities ++ [⟨← number? id, name, kind, ← number? file, ← number? line, ← number? column⟩] }
  | [some "declaration", entity, artifact, level] => do
    pure { c with declarations := c.declarations ++ [⟨← number? entity, ← number? artifact, ← flag? level⟩] }
  | some "reference" :: id :: artifact :: file :: line :: column :: some kind :: links => do
    let target ← link? (links.take 5)
    let scope ← link? (links.drop 5)
    pure { c with
      references := c.references ++
        [⟨⟨target, ← number? artifact, ← number? file, ← number? line, ← number? column, kind, scope⟩,
          ← number? id⟩] }
  | some "parameter" :: owner :: ordinal :: some mode :: artifact :: links => do
    pure { c with
      parameters := c.parameters ++
        [⟨← number? owner, ← number? ordinal, ← link? links, mode, ← number? artifact⟩] }
  | _ => none

end StoreFormat

namespace Contents

open StoreFormat

def write (c : Contents) : String :=
  firstLine ++ "\n" ++ String.join ((linesOf c).map writeLine)

/-- Reads a written store; `none` if the text is none. -/
def read? (s : String) : Option Contents :=
  match s.splitOn "\n" with
  | first :: lines =>
    if first = firstLine then (lines.filter (· ≠ "")).foldlM (fun c l => addLine c (readLine l)) {} else none
  | [] => none

end Contents

end Crossref
