/-
The words of an update command. An option takes the word behind it; a later option replaces an earlier one, except that
directories of runtime artifacts add up. Every other word is an artifact or a directory of artifacts.
-/
import Crossref.Path

namespace Crossref.CommandLine

structure UpdateFlags where
  db : Option Path := none
  seed : Option Path := none
  output : Option Path := none
  runtimeDirectories : List Path := []
  includeRuntime : Bool := true
  inputs : List Path := []
  deriving DecidableEq, Repr

inductive UpdateUsage where
  | unknownArgument (word : String)
  | missingStore
  deriving DecidableEq, Repr

/-- An option begins with two dashes. -/
def isOption (word : String) : Bool :=
  word.startsWith "--"

namespace UpdateFlags

def addWord (f : UpdateFlags) (word : String) : Except UpdateUsage UpdateFlags :=
  if word = "--no-runtime" then .ok { f with includeRuntime := false }
  else if isOption word then .error (.unknownArgument word)
  else .ok { f with inputs := f.inputs ++ [.ofString word] }

/-- Takes an option with the word behind it. -/
def addOption? (f : UpdateFlags) (option word : String) : Option UpdateFlags :=
  match option with
  | "--db" => some { f with db := some (.ofString word) }
  | "--seed" => some { f with seed := some (.ofString word) }
  | "--output" => some { f with output := some (.ofString word) }
  | "--runtime" => some { f with runtimeDirectories := f.runtimeDirectories ++ [.ofString word] }
  | _ => none

def addWords (f : UpdateFlags) : List String → Except UpdateUsage UpdateFlags
  | [] => .ok f
  | [word] => f.addWord word
  | option :: word :: rest =>
    match f.addOption? option word with
    | some f => f.addWords rest
    | none =>
      match f.addWord option with
      | .ok f => f.addWords (word :: rest)
      | .error e => .error e

/-- The flags in the words of a command, with the path of the store that they have to name. -/
def ofWords (words : List String) : Except UpdateUsage (Path × UpdateFlags) :=
  match addWords {} words with
  | .error e => .error e
  | .ok f =>
    match f.db with
    | some db => .ok (db, f)
    | none => .error .missingStore

end UpdateFlags

/-! The words of a find command -/

structure FindFlags where
  db : Option Path := none
  positional : List String := []
  deriving DecidableEq, Repr

inductive FindUsage where
  | unknownArgument (word : String)
  | wrongCount
  | notNumbers (words : List String)
  deriving DecidableEq, Repr

namespace FindFlags

def addWords (f : FindFlags) : List String → Except FindUsage FindFlags
  | [] => .ok f
  | "--db" :: word :: rest => addWords { f with db := some (.ofString word) } rest
  | word :: rest =>
    if isOption word then .error (.unknownArgument word)
    else addWords { f with positional := f.positional ++ [word] } rest

end FindFlags

end Crossref.CommandLine
