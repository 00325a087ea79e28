/-
The program. It reads from standard input which files there are, one on a line: the time of the last change in
milliseconds, a space, and the path; the path of a directory ends with a slash. The words of the command are its
arguments. Stores that the command changes are written back.
-/
import Crossref.CommandLine.Command
import Crossref.Store.Format

namespace Crossref.Program

/-- A file or directory that is there. -/
structure Listed where
  mtime : Int
  path : String

def Listed.ofLine? (line : String) : Option Listed :=
  match line.splitOn " " with
  | time :: word :: words => time.toInt?.map fun t => ⟨t, " ".intercalate (word :: words)⟩
  | _ => none

def Listed.isDirectory (l : Listed) : Bool :=
  l.path.endsWith "/"

/-- The variables of the process, each a name and a value with an equals sign between them. -/
def variablesOf (text : String) : Config.Variables :=
  (text.splitOn "\x00").filterMap fun entry =>
    match entry.splitOn "=" with
    | name :: value :: rest => some (name, "=".intercalate (value :: rest))
    | _ => none

/-- What stands in a file: a store, if it is written like one. -/
def nodeOf (mtime : Int) (content : Text.Bytes) : Node :=
  match (Text.decodeUtf8 content).toOption.bind fun chars => Contents.read? (String.ofList chars) with
  | some contents => .store contents mtime
  | none => .bytes content mtime

def addFile (t : FileTree) (l : Listed) (content : Text.Bytes) : FileTree :=
  match t.makeDirectories (Path.ofString l.path).parent with
  | .error _ => t
  | .ok t =>
    match t.locate (.ofString l.path) with
    | .ok place => t.put place (nodeOf l.mtime content)
    | .error _ => t

def addDirectory (t : FileTree) (l : Listed) : FileTree :=
  match t.makeDirectories (.ofString l.path) with
  | .ok t => t
  | .error _ => t

/-- Adds what is listed, if it can be read. -/
def addListed (t : FileTree) (l : Listed) : IO FileTree := do
  if l.isDirectory then pure (addDirectory t l)
  else try
    let content ← IO.FS.readBinFile l.path
    pure (addFile t l content.data.toList)
  catch _ => pure t

/-- Files that a command may need even if they are not listed. -/
def unlisted (home : String) (listed : List Listed) (words : List String) : List Listed :=
  let paths := words ++ [".env", ".xrefdb/config.yaml", home ++ "/.xrefdb/config.yaml"]
  (paths.filter fun p => listed.all (·.path ≠ p)).map fun p => ⟨0, p⟩

/-- The stores of a tree that are not in another one. -/
def changedStores (before after : FileTree) : List (Place × Contents) :=
  after.nodes.filterMap fun (place, node) =>
    match node with
    | .store contents _ => if before.node? place = some node then none else some (place, contents)
    | _ => none

def writeStore (place : Place) (contents : Contents) : IO Unit := do
  IO.FS.createDirAll (Path.absolute place.dropLast)
  IO.FS.writeFile (Path.absolute place) contents.write

def escapeText : CommandLine.Escape → String
  | .failure e => e.message
  | .load (.path e) => e.message
  | .load (.undecodable bytes start fault) => Config.undecodableMessage bytes start fault
  | .load (.document _) => "a configuration file cannot be read"
  | .load .keyNotText => "keywords must be strings"
  | .load (.rejected _) => "the configuration is not valid"

/-- The lines of standard input, up to its end. -/
partial def readListing (input : IO.FS.Stream) (read : List Listed) : IO (List Listed) := do
  let line ← input.getLine
  if line.isEmpty then pure read.reverse
  else readListing input ((Listed.ofLine? (line.dropEndWhile (· == '\n')).toString).toList ++ read)

def readEnvironment : IO Config.Variables := do
  let content ← IO.FS.readBinFile "/proc/self/environ"
  pure (match Text.decodeUtf8 content.data.toList with
    | .ok chars => variablesOf (String.ofList chars)
    | .error _ => [])

def run (words : List String) : IO UInt32 := do
  let environment ← readEnvironment
  let home := (environment.lookup "HOME").getD "/"
  let cwd := (Path.ofString ((environment.lookup "PWD").getD "/")).segments
  let listed ← readListing (← IO.getStdin) []
  let before ← (listed ++ unlisted home listed words).foldlM addListed (.ofWorkingDirectory cwd)
  let now := (listed.map (·.mtime)).foldl max 0
  let (outcome, w) := ((CommandLine.run { environment, home, now } words).run).run { files := before }
  (changedStores before w.files).forM fun (place, contents) => writeStore place contents
  match outcome with
  | .ok reply => do
    IO.print reply.text
    pure (UInt32.ofNat reply.exit)
  | .error e => do
    IO.eprintln (escapeText e)
    pure 1

end Crossref.Program

def main (words : List String) : IO UInt32 :=
  Crossref.Program.run words
