/-
The commands: `update` brings a store in line with artifacts, `find` shows an entity with its parameters and references.
A command answers with an exit code and the text that it writes. What a store or its schema refuses is told in the text;
other failures end the command.
-/
import Crossref.CommandLine.Artifacts
import Crossref.CommandLine.Flags
import Crossref.Config.Load
import Crossref.Index

namespace Crossref.CommandLine

structure Reply where
  exit : Nat := 0
  text : String
  deriving DecidableEq, Repr

/-- What ends a command without a reply. -/
inductive Escape where
  | load (error : Config.LoadError)
  | failure (failure : Failure)
  deriving DecidableEq, Repr

abbrev CommandM := ExceptT Escape (StateM Workspace)

/-- What a command is run with. -/
structure Caller where
  environment : Config.Variables
  home : String
  /-- The present time, in milliseconds. -/
  now : Int

/-! Texts -/

def usage : String :=
  "Usage: xrefdb update --db <path> [--seed <path>] [--output <path>]\n" ++
  "                     [--runtime <dir>] [--no-runtime] <artifact-or-dir>...\n" ++
  "       xrefdb find --db <path> <name> <file> [<line> [<column>]]\n\n" ++
  "update options:\n" ++
  "  --db <path>        Index database to update (created if missing)\n" ++
  "  --seed <path>      Copy this index into --db first when --db is empty\n" ++
  "  --output <path>    Copy the updated index to this path\n" ++
  "  --runtime <dir>    Directory of runtime-library artifacts\n" ++
  "  --no-runtime       Skip runtime-library artifacts\n\n" ++
  "Directories are searched recursively for artifact files.\n\n" ++
  "Examples:\n" ++
  "  xrefdb update --db obj/xref.db obj/\n" ++
  "  xrefdb find --db obj/xref.db Put src/io.adb 12\n\n"

def helpHint : String :=
  "Run 'xrefdb --help' for usage.\n"

def findUsage : String :=
  "Usage: xrefdb find --db <path> <name> <file> [<line> [<column>]]\n"

def UpdateUsage.message : UpdateUsage → String
  | .unknownArgument word => s!"Unknown argument: {word}\n" ++ helpHint
  | .missingStore => "Missing --db <path>\n"

def FindUsage.message : FindUsage → String
  | .unknownArgument word => s!"Unknown argument: {word}\n" ++ findUsage
  | .wrongCount => findUsage
  | .notNumbers words => "Line and column must be numbers: " ++ " ".intercalate words ++ "\n"

/-- The text, filled up with spaces to a width. -/
def padded (width : Nat) (s : String) : String :=
  s.pushn ' ' (width - s.length)

def progressLine (p : Progress) : String :=
  s!"\r  [{p.number}/{p.total}] " ++ padded 50 (Path.ofString p.path).name

def errorLine (e : FileError) : String :=
  let line := if e.line = 0 then "" else s!":{e.line}"
  s!"  {e.kind.text} error: {e.path}{line}: {e.message}\n"

/-- What an update has done, and what the store holds now. -/
def summary (u : UpdateStats) : String :=
  let staged := if u.staged then " (staged in memory)" else ""
  s!"\nDone: +{u.added} added, {u.updated} updated, {u.upToDate} up to date, {u.runtimeSkipped} runtime skipped" ++
    s!"{staged}\nTotal: {u.stats.artifacts} artifacts · {u.stats.entities} entities · " ++
    s!"{u.stats.references} references · {u.stats.pending} pending\n" ++
    String.join (u.errors.map errorLine)

def placeText (l : Location) : String :=
  s!"{l.file}:{l.line}:{l.column}"

/-! Running -/

/-- Runs an operation and answers its failure as a value. -/
def attempt {α : Type} (operation : WorkM α) : CommandM (Except Failure α) := do
  let (outcome, w) := operation.run.run (← get)
  set w
  pure outcome

/-- The failure is told in the reply. -/
def isTold : Failure → Bool
  | .schema _ _ => true
  | .connection _ => true
  | _ => false

/-- The reply to a failure, behind what was written before. -/
def refuse (written : String) (e : Failure) : CommandM Reply :=
  if isTold e then pure { exit := 1, text := written ++ e.message ++ "\n" } else throw (.failure e)

def ofLoad {α : Type} : Except Config.LoadError α → CommandM α
  | .ok a => pure a
  | .error e => throw (.load e)

def surroundings (c : Caller) : CommandM Config.Surroundings := do
  pure { files := (← get).files, environment := c.environment, home := c.home }

/-- Loads the settings for the working directory, which may be gone. -/
def loadSettings (c : Caller) : CommandM Config.Settings := do
  let s ← surroundings c
  if !s.files.canStart ⟨"", []⟩ then throw (.failure .noWorkingDirectory)
  ofLoad (Config.load s (Path.absolute s.files.cwd))

/-- Runs an operation on an index of its own, which is released afterwards. -/
def withIndex {α : Type} (threshold : Int) (db : Path) (body : Index → WorkM α) : WorkM α := do
  let x ← Index.openAt threshold db.toString
  tryFinally (body x) x.release

def updateWith (c : Caller) (db : Path) (flags : UpdateFlags) : CommandM Reply := do
  let settings ← loadSettings c
  let suffixes := settings.index.artifactSuffixes
  let t := (← get).files
  let files := collect t flags.inputs suffixes false ++ collect t flags.runtimeDirectories suffixes true
  let request : UpdateRequest :=
    { files, includeRuntime := flags.includeRuntime, seed := flags.seed.map (·.toString)
      output := flags.output.map (·.toString), now := c.now }
  modify fun w => { w with progress := [] }
  let outcome ← attempt (withIndex settings.index.memoryThreshold db (·.run (Index.update request)))
  let written := s!"Updating {db.toString} from {files.length} artifacts...\n" ++
    String.join ((← get).progress.map progressLine)
  match outcome with
  | .error e => refuse (written ++ "\nUpdate failed: ") e
  | .ok result =>
    let space := if 0 < result.stats.merged then "\n" else ""
    pure { text := written ++ space ++ summary result.stats }

def update (c : Caller) (words : List String) : CommandM Reply :=
  match UpdateFlags.ofWords words with
  | .error e => pure { exit := 1, text := e.message }
  | .ok (db, flags) => updateWith c db flags

/-! Finding -/

def parameterLine (x : Index) : Finding → WorkM String
  | .parameter p => do
    let d ← x.declaration p.parameter
    let name := if d.name = "" then "?" else d.name
    pure s!"  param {p.ordinal}: {name} {p.mode}\n"
  | _ => pure ""

def referenceLine : Finding → String
  | .reference r => "  " ++ padded 16 r.kind ++ s!" {placeText r.location}\n"
  | _ => ""

/-- All that there is to say about an entity. -/
def describe (x : Index) (entity : Int) : WorkM String := do
  let d ← x.declaration (some entity)
  let parameters ← (← Index.findings (x.parameters (some entity))).mapM (parameterLine x)
  let references := (← Index.findings (x.references (some entity))).map referenceLine
  pure (s!"{d.name} ({d.kind}) {placeText d.location}\n" ++ String.join parameters ++ String.join references)

/-- What a find command looks for. -/
structure Target where
  db : Path
  name : String
  file : String
  line : Int := Store.noEntity
  column : Int := Store.noEntity

def Target.ofWords (words : List String) : Except FindUsage Target := do
  let f ← FindFlags.addWords {} words
  match f.db, f.positional with
  | some db, name :: file :: numbers =>
    if 2 < numbers.length then .error .wrongCount
    else match numbers.mapM fun n => Text.readInt n.toList with
      | .error _ => .error (.notNumbers numbers)
      | .ok [] => .ok { db, name, file }
      | .ok [line] => .ok { db, name, file, line }
      | .ok (line :: column :: _) => .ok { db, name, file, line, column }
  | _, _ => .error .wrongCount

def findIn (target : Target) (x : Index) : WorkM Reply := do
  match ← x.entity? target.name (.text target.file) target.line target.column with
  | none => pure { exit := 1, text := s!"No entity {target.name} in {target.file}\n" }
  | some entity => pure { text := ← describe x entity }

def findTarget (c : Caller) (target : Target) : CommandM Reply := do
  if !(← get).files.isFile target.db then pure { exit := 1, text := s!"No index at {target.db.toString}\n" }
  else
    let settings ← loadSettings c
    match ← attempt (withIndex settings.index.memoryThreshold target.db (findIn target)) with
    | .ok reply => pure reply
    | .error e => refuse "Cannot read index: " e

def find (c : Caller) (words : List String) : CommandM Reply :=
  match Target.ofWords words with
  | .error e => pure { exit := 1, text := e.message }
  | .ok target => findTarget c target

/-! All commands -/

def asksForHelp (words : List String) : Bool :=
  words.isEmpty || words.contains "--help" || words.contains "-h"

/-- Runs the command in a list of words. The variables are looked at before any command. -/
def run (c : Caller) (words : List String) : CommandM Reply := do
  if asksForHelp words then pure { text := usage }
  else
    let _ ← ofLoad (Config.readOverrides (← surroundings c))
    match words with
    | "update" :: rest => update c rest
    | "find" :: rest => find c rest
    | word :: _ => pure { exit := 1, text := s!"Unknown command: {word}\n" ++ helpHint }
    | [] => pure { text := usage }

end Crossref.CommandLine
