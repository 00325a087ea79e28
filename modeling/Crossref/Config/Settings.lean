/-
Settings and how they are read from a configuration. A setting that is not given has its default, a key that is not
known is passed over, and all problems are reported together, each with its place, in the order of the settings.
-/
import Crossref.Config.Whole
import Crossref.Text.Lowercase

namespace Crossref.Config

inductive JournalMode where
  | wal
  | delete
  | truncate
  | persist
  | memory
  | off
  deriving DecidableEq, Repr

namespace JournalMode

def text : JournalMode → String
  | wal => "WAL"
  | delete => "DELETE"
  | truncate => "TRUNCATE"
  | persist => "PERSIST"
  | memory => "MEMORY"
  | off => "OFF"

def all : List JournalMode :=
  [wal, delete, truncate, persist, memory, off]

end JournalMode

/-- How far a store waits for the disk. -/
inductive Synchronous where
  | off
  | normal
  | full
  | extra
  deriving DecidableEq, Repr

namespace Synchronous

def text : Synchronous → String
  | off => "OFF"
  | normal => "NORMAL"
  | full => "FULL"
  | extra => "EXTRA"

def all : List Synchronous :=
  [off, normal, full, extra]

end Synchronous

structure IndexSettings where
  /-- More stale artifacts than this are merged in memory. -/
  memoryThreshold : Int := 100
  parseWorkers : Int := 1
  artifactSuffixes : List String := [".ali", ".xref"]
  deriving DecidableEq, Repr

structure StoreSettings where
  journalMode : JournalMode := .wal
  synchronous : Synchronous := .normal
  deriving DecidableEq, Repr

structure Settings where
  index : IndexSettings := {}
  store : StoreSettings := {}
  deriving DecidableEq, Repr

/-! Problems -/

/-- One step on the way to a value. -/
inductive Step where
  | field (name : String)
  | item (number : Nat)
  deriving DecidableEq, Repr

inductive Problem where
  | whole (problem : WholeProblem)
  | tooSmall
  | notAList
  | notAText
  | notAChoice
  | notASection
  deriving DecidableEq, Repr

structure Issue where
  place : List Step
  problem : Problem
  deriving DecidableEq, Repr

/-- What the settings that were read are settings of. -/
inductive Subject where
  | index
  | store
  | all
  | environment
  deriving DecidableEq, Repr

structure Rejection where
  subject : Subject
  issues : List Issue
  deriving DecidableEq, Repr

abbrev Checked (α : Type) := Except (List Issue) α

namespace Checked

/-- The issues of a reading that failed, and none of one that did not. -/
def issues {α : Type} : Checked α → List Issue
  | .ok _ => []
  | .error l => l

/-- Both readings; their issues are reported together. -/
def and {α β γ : Type} (f : α → β → γ) : Checked α → Checked β → Checked γ
  | .ok a, .ok b => .ok (f a b)
  | a, b => .error (issues a ++ issues b)

/-- Puts a step in front of the place of every issue. -/
def under {α : Type} (step : Step) : Checked α → Checked α
  | .ok a => .ok a
  | .error l => .error (l.map fun i => { i with place := step :: i.place })

def fail {α : Type} (problem : Problem) : Checked α :=
  .error [⟨[], problem⟩]

end Checked

open Checked

/-! Values of settings -/

/-- A whole number of at least `least`. -/
def readWhole (least : Int) (v : Value) : Checked Int :=
  match Whole.ofValue v with
  | .error p => fail (.whole p)
  | .ok n => if n < least then fail .tooSmall else .ok n

def readChoice {α : Type} (all : List α) (text : α → String) : Value → Checked α
  | .scalar (.text s) =>
    match all.find? fun a => text a = s with
    | some a => .ok a
    | none => fail .notAChoice
  | _ => fail .notAChoice

def readText : Value → Checked String
  | .scalar (.text s) => .ok s
  | _ => fail .notAText

/-- The items from the one with number `i` on. -/
def readTexts (i : Nat) : List Value → Checked (List String)
  | [] => .ok []
  | v :: rest => Checked.and (· :: ·) ((readText v).under (.item i)) (readTexts (i + 1) rest)

/-- A suffix is kept in lower case and with a dot in front. -/
def normalSuffix (s : String) : String :=
  let low := Text.lowercase s
  if s.startsWith "." then low else "." ++ low

def readSuffixes : Value → Checked (List String)
  | .list items => (readTexts 0 items).map fun l => l.map normalSuffix
  | _ => fail .notAList

/-- Reads the setting under a name, or takes its default. -/
def setting {α : Type} (m : Mapping) (name : String) (default : α) (read : Value → Checked α) : Checked α :=
  match m.get? (.text name) with
  | none => .ok default
  | some v => (read v).under (.field name)

/-- The value is a mapping. -/
def readSection {α : Type} (read : Mapping → Checked α) : Value → Checked α
  | .mapping m => read m
  | _ => fail .notASection

/-! The settings themselves -/

def thresholdName : String := "memory_threshold"

def workersName : String := "parse_workers"

def readIndex (m : Mapping) : Checked IndexSettings :=
  let d : IndexSettings := {}
  let threshold := setting m thresholdName d.memoryThreshold (readWhole 0)
  let workers := setting m workersName d.parseWorkers (readWhole 1)
  let suffixes := setting m "artifact_suffixes" d.artifactSuffixes readSuffixes
  Checked.and (fun (t, w) s => ⟨t, w, s⟩) (Checked.and Prod.mk threshold workers) suffixes

def readStore (m : Mapping) : Checked StoreSettings :=
  let d : StoreSettings := {}
  Checked.and StoreSettings.mk (setting m "journal_mode" d.journalMode (readChoice JournalMode.all JournalMode.text))
    (setting m "synchronous" d.synchronous (readChoice Synchronous.all Synchronous.text))

def readSettings (m : Mapping) : Checked Settings :=
  Checked.and Settings.mk (setting m "index" {} (readSection readIndex)) (setting m "store" {} (readSection readStore))

/-- Says what the issues are issues of. -/
def Checked.of {α : Type} (subject : Subject) : Checked α → Except Rejection α
  | .ok a => .ok a
  | .error issues => .error ⟨subject, issues⟩

end Crossref.Config
