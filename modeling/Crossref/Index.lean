/-
An index answers questions from the store that it has been set up on, and brings that store up to date. What a question
finds is passed by cursors. A cursor belongs to the generation of the index in which it was opened: releasing the store
begins a new generation, and with it all older cursors are stale. An update is refused while a cursor of the present
generation is open, and questions are refused while an update runs.
-/
import Crossref.Cursor
import Crossref.Lifecycle

namespace Crossref

/-- What a cursor of an index stands on. -/
inductive Finding where
  | entity (info : EntityInfo)
  | reference (info : ReferenceInfo)
  | parameter (info : ParameterInfo)
  deriving DecidableEq, Repr

/-- A finding means itself; the mode of a parameter has to be one that there is. -/
def Finding.meaning : Finding → Except Failure (Option Finding)
  | .parameter p =>
    if (ParameterMode.ofText? p.mode).isSome then .ok (some (.parameter p)) else .error (.unknownMode p.mode)
  | f => .ok (some f)

abbrev FindingCursor := Cursor Finding Finding

/-- A cursor that an index has handed out. -/
structure HeldCursor where
  cursor : FindingCursor
  generation : Nat
  /-- The connection that the rows come from; a cursor that never had rows has none. -/
  connection : Option Nat
  /-- Whether someone still has the cursor. -/
  held : Bool := true

structure Index where
  /-- How many stale artifacts are updated in place. -/
  threshold : Int
  connection : Option Nat := none
  generation : Nat := 0
  updating : Bool := false
  /-- Every cursor that was handed out; a cursor is known by its number in this list. -/
  cursors : List HeldCursor := []
  /-- The numbers of the cursors that the index keeps track of. -/
  tracked : List Nat := []
  lastReport : Option LifecycleReport := none

/-- An operation on an index and its workspace; what it did before it failed stays done. -/
abbrev IndexM := ExceptT Failure (StateM (Index × Workspace))

/-- A file that a question is about. -/
inductive FileArgument where
  | text (s : String)
  | path (p : Path)
  | record (file : FileRecord)
  deriving DecidableEq, Repr

/-- The path that is searched for: a record has it in the form of the index. -/
def FileArgument.searched : FileArgument → String
  | .text s => slashed s
  | .path p => slashed p.toString
  | .record file => file.path

/-- What is known of an entity; of an entity that there is not, nothing is. -/
structure DeclarationInfo where
  name : String := ""
  kind : String := ""
  location : Location := ⟨"", 0, 0⟩
  deriving DecidableEq, Repr

namespace Index

/-! The store -/

/-- Closes the store; the cursors of the generation that ends are stale, and no longer kept track of. -/
def release (x : Index) : WorkM Index :=
  match x.connection with
  | none => pure x
  | some id => do
    WorkM.close id
    pure { x with connection := none, generation := x.generation + 1, tracked := [] }

/-- Sets the index up on a store; the store that it had is released first. -/
def setup (x : Index) (id : Nat) : WorkM Index := do
  let x ← x.release
  pure { x with connection := some id }

/-- An index on the store at a path, which is made if there is none. -/
def openAt (threshold : Int) (path : String) : WorkM Index := do
  let id ← WorkM.connect path false
  ({ threshold } : Index).setup id

/-! Updates -/

/-- The connections of cursors with rows to come. -/
def reading (x : Index) : List Nat :=
  x.cursors.filterMap fun c => if c.held && !c.cursor.upcoming.isEmpty then c.connection else none

/-- How many of the cursors that the index keeps track of have rows left. -/
def openCursors (x : Index) : Nat :=
  x.tracked.countP fun n => x.cursors[n]?.any (!·.cursor.closed)

/-- An update may begin. -/
def admitUpdate (x : Index) : Except Failure Nat :=
  match x.connection with
  | none => .error (.connection .noStore)
  | some id =>
    if x.updating then .error (.busy .anotherUpdate)
    else if 0 < x.openCursors then .error (.busy (.openCursors x.openCursors))
    else .ok id

/-- The index while it is updated, as those see it who are told of the progress. -/
def duringUpdate (x : Index) : Index :=
  { x with updating := true }

/-- The index when its update is over. -/
def afterUpdate (x : Index) : Index :=
  { x with updating := false }

/-- Runs an operation on the workspace. -/
def onWork {α : Type} (operation : WorkM α) : IndexM α := fun (x, w) =>
  let (outcome, w) := operation w
  (outcome, (x, w))

/-- Runs an operation on the index. -/
def modifyIndex (change : Index → Index) : IndexM PUnit :=
  modify fun (x, w) => (change x, w)

/-- Runs an operation on an index that is not used afterwards. -/
def run {α : Type} (x : Index) (operation : IndexM α) : WorkM α := fun w =>
  let (outcome, _, w) := operation (x, w)
  (outcome, w)

/-- Brings the store up to date. The index counts as being updated until the update is over, also if it fails. -/
def update (request : UpdateRequest) : IndexM UpdateResult := do
  let x := (← get).1
  let id ← onWork (WorkM.ofExcept x.admitUpdate)
  modifyIndex duringUpdate
  tryFinally
    (do
      let result ← onWork (Lifecycle.run id x.threshold request)
      modifyIndex fun x => { x with lastReport := some result.report }
      pure result)
    (modifyIndex afterUpdate)

/-! Questions -/

/-- Questions may be asked. -/
def admitQuestion (x : Index) : Except Failure Nat :=
  match x.connection with
  | none => .error (.stale .index)
  | some id => if x.updating then .error (.busy .updating) else .ok id

/-- A statement that is refused while a question is answered. -/
def questionFailure (store : String) : Failure → Failure
  | .row fault => .connection (.queryFailed store fault)
  | e => e

/-- Asks a store a question. -/
def ask {α : Type} (id : Nat) (question : StoreM α) : WorkM α := do
  let c ← WorkM.connection id
  tryCatch (WorkM.onStore id question) fun e => throw (questionFailure c.path e)

def stats (x : Index) : WorkM Stats := do
  ask (← WorkM.ofExcept x.admitQuestion) Store.stats

/-- The first entity with a name in a file. -/
def entity? (x : Index) (name : String) (file : FileArgument) (line column : Int) : WorkM (Option Int) := do
  let id ← WorkM.ofExcept x.admitQuestion
  let found ← ask id (Store.entities { name := some name, file := some file.searched, line, column })
  pure (found.head?.map (·.id))

/-- An id under which there may be an entity. -/
def meant (entity : Option Int) : Option Int :=
  entity.filter (· ≠ Store.noEntity)

/-- Name, kind and place of an entity; all of them are empty if there is no such entity. -/
def declaration (x : Index) (entity : Option Int) : WorkM DeclarationInfo := do
  let id ← WorkM.ofExcept x.admitQuestion
  match meant entity with
  | none => pure {}
  | some e =>
    match ← ask id (Store.entity? e) with
    | none => pure {}
    | some info => pure ⟨info.name, info.kind, info.location⟩

/-- Hands out a cursor and answers its number; the index keeps track of it unless it is closed already. -/
def handOut (x : Index) (c : HeldCursor) : Index × Nat :=
  let n := x.cursors.length
  ({ x with cursors := x.cursors ++ [c], tracked := if c.cursor.closed then x.tracked else x.tracked ++ [n] }, n)

/-- A cursor over the findings of a question. -/
def openCursor {α : Type} (x : Index) (finding : α → Finding) (question : StoreM (List α)) : WorkM (Index × Nat) := do
  let id ← WorkM.ofExcept x.admitQuestion
  let rows ← ask id question
  pure (x.handOut ⟨.ofRows (rows.map finding), x.generation, some id, true⟩)

/-- The cursor that never had rows; it is closed from the beginning. -/
def emptyCursor (x : Index) : WorkM (Index × Nat) := do
  let _ ← WorkM.ofExcept x.admitQuestion
  pure (x.handOut ⟨.ofRows [], x.generation, none, true⟩)

def entities (x : Index) (name : Option String) (file : Option FileArgument) (kind : Option String) :
    WorkM (Index × Nat) :=
  x.openCursor .entity (Store.entities { name, file := file.map (·.searched), kind })

def references (x : Index) (entity : Option Int) : WorkM (Index × Nat) :=
  match meant entity with
  | none => x.emptyCursor
  | some e => x.openCursor .reference (Store.references e)

def parameters (x : Index) (entity : Option Int) : WorkM (Index × Nat) :=
  match meant entity with
  | none => x.emptyCursor
  | some e => x.openCursor .parameter (Store.parameters e)

/-! Cursors that were handed out -/

/-- A cursor may be looked at while its generation lasts. -/
def admitLook (x : Index) (c : HeldCursor) : Except Failure PUnit :=
  if c.generation = x.generation && x.connection.isSome then .ok () else .error (.stale .cursor)

/-- Further rows can be had while the connection that they come from is open. -/
def admitFetch (w : Workspace) (c : HeldCursor) : Except Failure PUnit :=
  match c.connection.bind w.connection? with
  | some s => if s.isOpen then .ok () else .error .closedBeneath
  | none => .ok ()

/-- Keeps track of a cursor no longer. -/
def untrack (x : Index) (n : Nat) : Index :=
  { x with tracked := x.tracked.filter (· ≠ n) }

/-- Replaces what is known of a cursor; a cursor that is closed is no longer kept track of. -/
def setCursor (x : Index) (n : Nat) (c : HeldCursor) : Index :=
  let x := { x with cursors := x.cursors.set n c }
  if c.cursor.closed then x.untrack n else x

/-- Nobody has the cursor any more. -/
def forget (x : Index) (n : Nat) : Index :=
  { x with cursors := x.cursors.modify n fun c => { c with held := false } }.untrack n

def hasElement (x : Index) (c : HeldCursor) : Except Failure Bool :=
  c.cursor.hasElement (x.admitLook c)

def current (x : Index) (c : HeldCursor) : Except Failure (Option Finding) × HeldCursor :=
  let (outcome, cursor) := c.cursor.current (x.admitLook c) Finding.meaning
  (outcome, { c with cursor })

def advance (x : Index) (w : Workspace) (c : HeldCursor) : Except Failure PUnit × HeldCursor :=
  let (outcome, cursor) := c.cursor.advance (x.admitLook c) (admitFetch w c)
  (outcome, { c with cursor })

def toList (x : Index) (w : Workspace) (c : HeldCursor) : Except Failure (List (Option Finding)) × HeldCursor :=
  let (outcome, cursor) := c.cursor.toList (x.admitLook c) (admitFetch w c) Finding.meaning
  (outcome, { c with cursor })

/-- All findings of a question; the cursor that passes them is closed afterwards. -/
def findings (opened : WorkM (Index × Nat)) : WorkM (List Finding) := do
  let (x, n) ← opened
  match x.cursors[n]? with
  | none => pure []
  | some c => do
    let found ← WorkM.ofExcept (x.toList (← get) c).1
    pure (found.filterMap id)

/-- The outcome of a stage of the last update. -/
def outcome? (x : Index) (stage : String) : Except Failure (Option StageOutcome) :=
  match x.lastReport with
  | none => .ok none
  | some r => r.outcome stage |>.map some

end Index

end Crossref
