/-
A workspace is the files together with the connections to stores. A connection to a store in a file shares its contents
with the file, except that it has contents of its own while a transaction is running on it. A store in memory belongs to
its connection alone.
-/
import Crossref.FileTree
import Crossref.Store.Query
import Crossref.Store.Write
import Crossref.Update.Progress

namespace Crossref

structure Connection where
  path : String
  readOnly : Bool
  /-- Where the store's file is; a store in memory has none. -/
  place : Option Place
  isOpen : Bool := true
  contents : Contents
  depth : Nat := 0
  transaction : Transaction := .idle
  deriving DecidableEq

structure Workspace where
  files : FileTree
  /-- Every connection that was ever made; a connection is known by its number in this list. -/
  connections : List Connection := []
  /-- The connections from which rows are still to come. -/
  reading : List Nat := []
  /-- What updates have reported; a failure does not take it back. -/
  progress : List Progress := []

/-- The path that stands for a store in memory. -/
def memoryPath : String := ":memory:"

def Connection.isMemory (c : Connection) : Bool :=
  c.path = memoryPath

/-- The connection after its store has become another one. -/
def Connection.holding (c : Connection) (s : Store) : Connection :=
  { c with contents := s.contents, depth := s.depth, transaction := s.transaction }

/-- An operation on a workspace; what it did before it failed stays done. -/
abbrev WorkM := ExceptT Failure (StateM Workspace)

namespace Workspace

def connection? (w : Workspace) (id : Nat) : Option Connection :=
  w.connections[id]?

def setConnection (w : Workspace) (id : Nat) (c : Connection) : Workspace :=
  { w with connections := w.connections.set id c }

/-- What a connection sees. -/
def storeOf (w : Workspace) (c : Connection) : Store :=
  let contents :=
    match c.place with
    | none => c.contents
    | some place =>
      if c.transaction.isRunning then c.contents
      else
        match w.files.node? place with
        | some (.store contents _) => contents
        | _ => c.contents
  { path := c.path, readOnly := c.readOnly, contents, depth := c.depth, transaction := c.transaction }

/-- Puts contents into a store's file, if the file is still there. -/
def publish (w : Workspace) (place : Option Place) (contents : Contents) : Workspace :=
  match place with
  | none => w
  | some place =>
    match w.files.node? place with
    | some (.store _ mtime) => { w with files := w.files.put place (.store contents mtime) }
    | _ => w

/-- Takes over what a statement made of the store of a connection. -/
def keep (w : Workspace) (id : Nat) (c : Connection) (s : Store) : Workspace :=
  let w := w.setConnection id (c.holding s)
  if c.transaction = .idle then w.publish c.place s.contents else w

end Workspace

namespace WorkM

def fail {α : Type} (fault : ConnectionFault) : WorkM α :=
  throw (.connection fault)

def connection (id : Nat) : WorkM Connection := do
  match (← get).connection? id with
  | some c => pure c
  | none => fail (.closed memoryPath)

/-- The connection, which has to be open. -/
def openConnection (id : Nat) : WorkM Connection := do
  let c ← connection id
  if c.isOpen then pure c else fail (.closed c.path)

/-- Runs an operation on the store of an open connection. -/
def onStore {α : Type} (id : Nat) (operation : StoreM α) : WorkM α := do
  let c ← openConnection id
  let w ← get
  let (outcome, s) := operation.run.run (w.storeOf c)
  set (w.keep id c s)
  match outcome with
  | .ok a => pure a
  | .error e => throw e

def ofExcept {α : Type} : Except Failure α → WorkM α
  | .ok a => pure a
  | .error e => throw e

/-! Transactions -/

def enter (id : Nat) : WorkM PUnit := do
  let c ← openConnection id
  modify fun w => w.setConnection id (c.holding (w.storeOf c).enter)

/-- Ends a block of a connection that was closed meanwhile. -/
def leaveClosed (id : Nat) (c : Connection) : WorkM PUnit := do
  modify fun w => w.setConnection id { c with depth := c.depth - 1 }
  if c.depth ≤ 1 then throw .closedBeneath

def leave (id : Nat) : WorkM PUnit := do
  let c ← connection id
  if !c.isOpen then leaveClosed id c
  else
    let w ← get
    let (outcome, s) := StoreM.leave.run.run (w.storeOf c)
    let w := w.setConnection id (c.holding s)
    set (if s.transaction = .idle then w.publish c.place s.contents else w)
    ofExcept outcome

/-- Ends a block that failed. What other connections wrote to the file meanwhile is not touched. -/
def abandon (id : Nat) : WorkM PUnit := do
  let c ← connection id
  if !c.isOpen then leaveClosed id c
  else
    let w ← get
    let (outcome, s) := StoreM.abandon.run.run (w.storeOf c)
    set (w.setConnection id (c.holding s))
    ofExcept outcome

/-! Opening and closing -/

/-- What a file holds for someone who opens it as a store; a file of at most one byte holds no tables yet. -/
inductive Found where
  | nothing
  | contents (contents : Contents)
  | junk
  | directory

def foundAt (t : FileTree) (place : Place) : Found :=
  match t.node? place with
  | none => .nothing
  | some .directory => .directory
  | some (.store contents _) => .contents contents
  | some (.bytes content _) => if content.length ≤ 1 then .contents .blank else .junk

/-- Where the store is that is opened for reading only. The path is resolved before it is handed on, and what is handed
on may still have links. -/
def readPlace (t : FileTree) (path : String) : Except Failure Place :=
  let cannotOpen (cause : String) := Failure.connection (.cannotOpen path cause)
  match t.resolve path with
  | .error .noWorkingDirectory => .error (cannotOpen Failure.noWorkingDirectory.message)
  | .error e => .error e
  | .ok place =>
    match t.storePlace? (.ofPlace place) with
    | none => .error (cannotOpen RowFault.unableToOpen.message)
    | some place => .ok place

/-- The contents of an existing store that is opened for reading only. -/
def findReadOnly (path : String) : WorkM (Place × Contents) := do
  let t := (← get).files
  let place ← ofExcept (readPlace t path)
  match foundAt t place with
  | .nothing | .directory => fail (.cannotOpen path RowFault.unableToOpen.message)
  | .junk => fail (.cannotUse path .notADatabase)
  | .contents contents => pure (place, contents)

/-- The contents of a store that is opened for writing; directories above it are made. -/
def findWritable (path : String) : WorkM (Place × Contents) := do
  let t := (← get).files
  match t.makeDirectories (Path.ofString path).parent with
  | .error e => fail (.cannotOpen path e.message)
  | .ok t =>
    modify fun w => { w with files := t }
    match t.storePlace? (.ofString path) with
    | none => fail (.cannotOpen path RowFault.unableToOpen.message)
    | some place =>
      match foundAt t place with
      | .directory => fail (.cannotOpen path RowFault.unableToOpen.message)
      | .junk => fail (.cannotUse path .notADatabase)
      | .nothing =>
        if t.isDirectory (.ofPlace place.dropLast) then pure (place, .blank)
        else fail (.cannotOpen path RowFault.unableToOpen.message)
      | .contents contents => pure (place, contents)

def addConnection (c : Connection) : WorkM Nat := do
  let w ← get
  set { w with connections := w.connections ++ [c] }
  pure w.connections.length

/-- A connection to a store in memory. -/
def connectMemory (path : String) : WorkM Nat :=
  addConnection { path, readOnly := false, place := none, contents := .empty }

/-- Contents without tables become an index, if they may be written; others have to be one. -/
def ensureSchema (path : String) (readOnly : Bool) (contents : Contents) : WorkM Contents := do
  if contents.tables.isEmpty then
    if readOnly then throw (.schema path .absent) else pure .empty
  else
    let _ ← ofExcept (Store.checkSchema.run.run { path, readOnly, contents }).1
    pure contents

/-- Opens the store at a path and answers the number of the connection. -/
def connect (path : String) (readOnly : Bool) : WorkM Nat := do
  if path.toList.contains (Char.ofNat 0) then throw .nulInPath
  if !readOnly && (path = memoryPath || path = "") then connectMemory path
  else
    let (place, found) ← if readOnly then findReadOnly path else findWritable path
    let contents ← ensureSchema path readOnly found
    if !readOnly then
      modify fun w =>
        let mtime := ((w.files.node? place).map Node.mtime).getD 0
        { w with files := w.files.put place (.store contents mtime) }
    addConnection { path, readOnly, place := some place, contents }

def close (id : Nat) : WorkM PUnit := do
  let c ← connection id
  modify fun w => w.setConnection id { c with isOpen := false }

/-- Runs an operation on a connection of its own, which is closed afterwards. -/
def withConnection {α : Type} (path : String) (readOnly : Bool) (body : Nat → WorkM α) : WorkM α := do
  let id ← connect path readOnly
  tryFinally (body id) (close id)

/-! Whole stores -/

/-- Replaces the contents of the target by those of the source; a transaction of the target that has not run a
statement yet does not take that back. -/
def copy (source target : Nat) : WorkM PUnit := do
  let t ← connection target
  if t.readOnly then fail (.readOnlyTarget t.path)
  let s ← openConnection source
  let t ← openConnection target
  if source = target then throw .copyOntoItself
  let w ← get
  if t.transaction.isRunning || w.reading.contains target then fail (.copyFailed s.path t.path .targetInUse)
  let contents := (w.storeOf s).contents
  set ((w.setConnection target { t with contents }).publish t.place contents)

/-- Takes a table out of a store. -/
def dropTable (id : Nat) (name : String) : WorkM PUnit := do
  let reading := (← get).reading.contains id
  onStore id (Store.dropTable name reading)

/-- The schema of the store of a connection is looked at before anything else. -/
def needSchema (id : Nat) : WorkM PUnit := do
  let c ← connection id
  if !c.isOpen then throw .disconnected

end WorkM

end Crossref
