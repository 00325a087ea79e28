/-
A session holds stores, plans, indexes and cursors under names, above one workspace. A name that is given again stands
for the new thing; whoever held a cursor under it has given the cursor up. A step that fails leaves the names as they
were.
-/
import Crossref.Index

namespace Crossref

structure Session where
  work : Workspace
  /-- The threshold of the indexes and updates of the session. -/
  threshold : Int
  /-- The present time, in milliseconds. -/
  now : Int := 0
  stores : List (String × Nat) := []
  plans : List (String × UpdatePlan) := []
  /-- Every index that was ever opened; an index is known by its number in this list. -/
  indexes : List Index := []
  indexNames : List (String × Nat) := []
  /-- The numbers of the index and of the cursor. -/
  cursors : List (String × Nat × Nat) := []

abbrev SessionM := ExceptT Failure (StateM Session)

namespace Session

/-- Gives a name to something. -/
def assign {α : Type} (names : List (String × α)) (name : String) (a : α) : List (String × α) :=
  (name, a) :: names.filter (·.1 ≠ name)

def named {α : Type} (names : List (String × α)) (name : String) : SessionM α :=
  match names.lookup name with
  | some a => pure a
  | none => throw (.unknownName name)

/-- Runs an operation on the workspace. -/
def onWork {α : Type} (operation : WorkM α) : SessionM α := do
  let s ← get
  let (outcome, w) := operation.run.run { s.work with reading := s.indexes.flatMap (·.reading) }
  set { s with work := w }
  match outcome with
  | .ok a => pure a
  | .error e => throw e

def onFiles (change : FileTree → Except PathError FileTree) : SessionM PUnit := do
  let s ← get
  match change s.work.files with
  | .ok t => set { s with work := { s.work with files := t } }
  | .error e => throw (.path e)

/-! Stores and plans -/

def store (name : String) : SessionM Nat := do
  named (← get).stores name

def openStore (name path : String) (readOnly : Bool) : SessionM PUnit := do
  let id ← onWork (WorkM.connect path readOnly)
  modify fun s => { s with stores := assign s.stores name id }

/-- Makes a file that holds just the given tables, all of them empty. -/
def makeStore (path : String) (tables : List String) : SessionM PUnit := do
  onFiles fun t => t.makeDirectories (Path.ofString path).parent
  onFiles fun t =>
    match t.locate (.ofString path) with
    | .error fault => .error ⟨fault, path⟩
    | .ok place => .ok (t.put place (if tables.isEmpty then .bytes [] 0 else .store { tables } 0))

def plan (name : String) : SessionM UpdatePlan := do
  named (← get).plans name

def holdPlan (name : String) (p : UpdatePlan) : SessionM PUnit :=
  modify fun s => { s with plans := assign s.plans name p }

/-! Indexes -/

def index (name : String) : SessionM (Nat × Index) := do
  let n ← named (← get).indexNames name
  match (← get).indexes[n]? with
  | some x => pure (n, x)
  | none => throw (.unknownName name)

def setIndex (n : Nat) (x : Index) : SessionM PUnit :=
  modify fun s => { s with indexes := s.indexes.set n x }

/-- Opens an index, on the store at a path if one is given. -/
def openIndex (name : String) (path : Option String) : SessionM PUnit := do
  let threshold := (← get).threshold
  let x ← match path with
    | none => pure { threshold }
    | some path => onWork (Index.openAt threshold path)
  modify fun s => { s with indexes := s.indexes ++ [x], indexNames := assign s.indexNames name s.indexes.length }

/-- Runs an operation that changes an index. -/
def changeIndex {α : Type} (name : String) (operation : Index → WorkM (Index × α)) : SessionM α := do
  let (n, x) ← index name
  let (x, a) ← onWork (operation x)
  setIndex n x
  pure a

/-- Runs an operation on an index and the workspace; what it did to the index before it failed stays done. -/
def onIndex {α : Type} (name : String) (operation : IndexM α) : SessionM α := do
  let (n, x) ← index name
  let s ← get
  let work := { s.work with reading := s.indexes.flatMap (·.reading) }
  let (outcome, x, w) := operation.run.run (x, work)
  set { s with work := w }
  setIndex n x
  match outcome with
  | .ok a => pure a
  | .error e => throw e

/-- The connection of the store of an index. -/
def indexStore (name : String) : SessionM Nat := do
  match (← index name).2.connection with
  | some id => pure id
  | none => throw (.connection .noStore)

/-! Cursors -/

def forget (index number : Nat) : SessionM PUnit :=
  modify fun s => { s with indexes := s.indexes.modify index (·.forget number) }

def holdCursor (name : String) (index number : Nat) : SessionM PUnit := do
  if let some (i, n) := (← get).cursors.lookup name then forget i n
  modify fun s => { s with cursors := assign s.cursors name (index, number) }

/-- Runs an operation on a cursor of an index. -/
def onCursor {α : Type} (index number : Nat)
    (look : Workspace → Index → HeldCursor → Except Failure α × HeldCursor) : SessionM α := do
  let s ← get
  match (s.indexes[index]?).bind fun x => (x.cursors[number]?).map (x, ·) with
  | none => throw .exhausted
  | some (x, c) =>
    let (outcome, c) := look s.work x c
    setIndex index (x.setCursor number c)
    match outcome with
    | .ok a => pure a
    | .error e => throw e

def onNamedCursor {α : Type} (name : String)
    (look : Workspace → Index → HeldCursor → Except Failure α × HeldCursor) : SessionM α := do
  let (i, n) ← named (← get).cursors name
  onCursor i n look

/-- Opens a cursor and keeps it under a name. -/
def openCursor (name indexName : String) (question : Index → WorkM (Index × Nat)) : SessionM PUnit := do
  let number ← changeIndex indexName question
  holdCursor name (← index indexName).1 number

/-- Opens a cursor, goes through it and gives it up. -/
def findings (indexName : String) (question : Index → WorkM (Index × Nat)) : SessionM (List (Option Finding)) := do
  let number ← changeIndex indexName question
  let n := (← index indexName).1
  let found ← tryCatch (onCursor n number fun w x c => x.toList w c) fun e => do
    forget n number
    throw e
  pure found

/-! Updates -/

/-- Runs an update with an empty log of progress; answers its result and the log. -/
def logged {α : Type} (update : SessionM α) : SessionM (α × List Progress) := do
  modify fun s => { s with work := { s.work with progress := [] } }
  let a ← update
  pure (a, (← get).work.progress)

/-- Plans an update of a store and carries the plan out at once. -/
def update (id : Nat) (request : UpdateRequest) : SessionM UpdateStats := do
  let p ← onWork (Lifecycle.plan id request.files request.includeRuntime)
  onWork (Lifecycle.apply id request.cancel request.now p)

def runLifecycle (id : Nat) (request : UpdateRequest) : SessionM UpdateResult := do
  onWork (Lifecycle.run id (← get).threshold request)

end Session

end Crossref
