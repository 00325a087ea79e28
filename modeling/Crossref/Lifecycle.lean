/-
One update of a target store, in five stages. An empty target is first filled from a seed. If more artifacts are stale
than the threshold allows, the target is copied into memory, updated there and copied back; otherwise it is updated in
place. At the end the target is copied to an output. Every stage reports whether it ran and why.
-/
import Crossref.Update.Merge
import Crossref.Workspace

namespace Crossref

inductive Stage where
  | bootstrap
  | stage
  | update
  | commit
  | export
  deriving DecidableEq, Repr

def Stage.text : Stage → String
  | .bootstrap => "bootstrap"
  | .stage => "stage"
  | .update => "update"
  | .commit => "commit"
  | .export => "export"

structure StageOutcome where
  stage : Stage
  ran : Bool
  reason : String := ""
  deriving DecidableEq, Repr

abbrev LifecycleReport := List StageOutcome

/-- The outcome of the stage with a name. -/
def LifecycleReport.outcome (r : LifecycleReport) (name : String) : Except Failure StageOutcome :=
  match r.find? (·.stage.text = name) with
  | some o => .ok o
  | none => .error (.unknownStage name)

/-- What an update is asked to do. -/
structure UpdateRequest where
  files : List ArtifactFile
  includeRuntime : Bool := true
  seed : Option String := none
  output : Option String := none
  /-- Whether to stop, asked before each artifact with the number of those before it. -/
  cancel : Nat → Bool := fun _ => false
  /-- The time of the update, in milliseconds. -/
  now : Int := 0

/-- What an update answers. -/
structure UpdateResult where
  stats : UpdateStats
  report : LifecycleReport

namespace Lifecycle

open WorkM

/-- Plans an update of the store of a connection. -/
def plan (target : Nat) (files : List ArtifactFile) (includeRuntime : Bool) : WorkM UpdatePlan := do
  needSchema target
  let t := (← get).files
  onStore target (Update.plan t files includeRuntime)

/-- Carries out a plan on the store of a connection; the artifacts are read before the store is touched. -/
def apply (target : Nat) (cancel : Nat → Bool) (now : Int) (plan : UpdatePlan) : WorkM UpdateStats := do
  let batch ← WorkM.ofExcept (Update.readStale (← get).files cancel plan.stale)
  modify fun w => { w with progress := w.progress ++ batch.progress }
  onStore target (Update.merge plan batch now)

/-- The path names the file of the connection's store. -/
def isSameStore (t : FileTree) (path : String) (c : Connection) : Except Failure Bool :=
  if c.isMemory then .ok false
  else do
    let place ← t.resolve path
    let own ← t.resolve c.path
    pure (place = own)

def bootstrap (target : Nat) : Option String → WorkM StageOutcome
  | none => pure ⟨.bootstrap, false, "no seed"⟩
  | some seed => do
    if ← onStore target Store.hasContent then pure ⟨.bootstrap, false, "target already has content"⟩
    else
      let c ← connection target
      let t := (← get).files
      if ← WorkM.ofExcept (isSameStore t seed c) then pure ⟨.bootstrap, false, "seed is the target"⟩
      else if !t.isFile (.ofString seed) then pure ⟨.bootstrap, false, s!"seed {seed} not found"⟩
      else do
        withConnection seed true fun source => copy source target
        pure ⟨.bootstrap, true, ""⟩

def exportTo (target : Nat) : Option String → WorkM StageOutcome
  | none => pure ⟨.export, false, "no output"⟩
  | some output => do
    let c ← connection target
    let t := (← get).files
    if ← WorkM.ofExcept (isSameStore t output c) then pure ⟨.export, false, "output is the target"⟩
    else
      let parent := Path.ofPlace (← WorkM.ofExcept (t.resolve output)).dropLast
      if !t.isDirectory parent then pure ⟨.export, false, s!"{parent.toString} is not a writable directory"⟩
      else do
        withConnection output false fun sink => copy target sink
        pure ⟨.export, true, ""⟩

/-- Whether the update is staged in memory. -/
def staging (c : Connection) (threshold : Int) (plan : UpdatePlan) : StageOutcome :=
  let reason := s!"{plan.stale.length} stale artifacts, threshold {threshold}"
  if c.isMemory then ⟨.stage, false, "target is already in memory"⟩
  else ⟨.stage, threshold < plan.stale.length, reason⟩

/-- Updates a copy of the target in memory and copies it back. -/
def applyStaged (target : Nat) (request : UpdateRequest) (plan : UpdatePlan) : WorkM UpdateStats :=
  withConnection memoryPath false fun memory => do
    copy target memory
    let stats ← apply memory request.cancel request.now plan
    copy memory target
    pure { stats with staged := true }

def run (target : Nat) (threshold : Int) (request : UpdateRequest) : WorkM UpdateResult := do
  let bootstrapped ← bootstrap target request.seed
  let plan ← plan target request.files request.includeRuntime
  let staged := staging (← connection target) threshold plan
  let stats ←
    if staged.ran then applyStaged target request plan else apply target request.cancel request.now plan
  let updated : LifecycleReport :=
    if staged.ran then [⟨.update, true, "in memory"⟩, ⟨.commit, true, ""⟩]
    else [⟨.update, true, ""⟩, ⟨.commit, false, "not staged"⟩]
  let exported ← exportTo target request.output
  pure { stats, report := [bootstrapped, staged] ++ updated ++ [exported] }

end Lifecycle

end Crossref
