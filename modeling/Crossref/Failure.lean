/-
Everything that can go wrong with a store, an index or a file, as causes; `message` gives the words.
-/
import Crossref.Text.Numeral

namespace Crossref

open Text (quoted)

/-- The operating system refuses to touch a path. -/
inductive PathFault where
  | notFound
  | exists
  | notDirectory
  | isDirectory
  | tooManyLinks
  deriving DecidableEq, Repr

structure PathError where
  fault : PathFault
  path : String
  deriving DecidableEq, Repr

def PathError.message (e : PathError) : String :=
  match e.fault with
  | .notFound => s!"[Errno 2] No such file or directory: {quoted e.path}"
  | .exists => s!"[Errno 17] File exists: {quoted e.path}"
  | .notDirectory => s!"[Errno 20] Not a directory: {quoted e.path}"
  | .isDirectory => s!"[Errno 21] Is a directory: {quoted e.path}"
  | .tooManyLinks => s!"[Errno 40] Too many levels of symbolic links: {quoted e.path}"

/-- A statement on the rows of a store is refused. -/
inductive RowFault where
  | noSuchTable (name : String)
  | readOnly
  | foreignKey
  | unableToOpen
  | notADatabase
  | targetInUse
  | tableInUse
  /-- There is no room left, for instance no id that could be given to another row. -/
  | full
  | cannotCommit
  | cannotRollback
  deriving DecidableEq, Repr

def RowFault.message : RowFault → String
  | .noSuchTable name => s!"no such table: {name}"
  | .readOnly => "attempt to write a readonly database"
  | .foreignKey => "FOREIGN KEY constraint failed"
  | .unableToOpen => "unable to open database file"
  | .notADatabase => "file is not a database"
  | .targetInUse => "destination database is in use"
  | .tableInUse => "database table is locked"
  | .full => "database or disk is full"
  | .cannotCommit => "cannot commit - no transaction is active"
  | .cannotRollback => "cannot rollback - no transaction is active"

/-- A store that is there but is not an index of this version. -/
inductive SchemaFault where
  | foreign
  | version (found : Option String)
  | missingTables (names : List String)
  | absent
  deriving DecidableEq, Repr

def schemaVersion : String := "1"

def SchemaFault.message (store : String) : SchemaFault → String
  | .foreign => s!"store {store} is not a cross-reference index"
  | .version found =>
    let text := (found.map quoted).getD "None"
    s!"store {store} has schema version {text}, expected {schemaVersion}"
  | .missingTables names => s!"store {store} is missing tables: " ++ ", ".intercalate names
  | .absent => s!"store {store} has no cross-reference schema"

/-- A store that cannot be reached, or that fails in the middle of an operation. -/
inductive ConnectionFault where
  | cannotOpen (store cause : String)
  | cannotUse (store : String) (fault : RowFault)
  | closed (store : String)
  | readOnlyTarget (store : String)
  | copyFailed (source target : String) (fault : RowFault)
  | cannotRead (store : String) (fault : RowFault)
  | mergeFailed (store : String) (fault : RowFault)
  | queryFailed (store : String) (fault : RowFault)
  | noStore
  deriving DecidableEq, Repr

def ConnectionFault.message : ConnectionFault → String
  | .cannotOpen store cause => s!"cannot open store {store}: {cause}"
  | .cannotUse store fault => s!"cannot use store {store}: {fault.message}"
  | .closed store => s!"store {store} is closed"
  | .readOnlyTarget store => s!"cannot copy into read-only store {store}"
  | .copyFailed source target fault => s!"bulk copy {source} -> {target} failed: {fault.message}"
  | .cannotRead store fault => s!"cannot read store {store}: {fault.message}"
  | .mergeFailed store fault => s!"merge into {store} failed: {fault.message}"
  | .queryFailed store fault => s!"query on {store} failed: {fault.message}"
  | .noStore => "index has no store, call setup() first"

/-- An update is refused because something else uses the index. -/
inductive Busy where
  | updating
  | anotherUpdate
  | openCursors (count : Nat)
  deriving DecidableEq, Repr

def Busy.message : Busy → String
  | .updating => "an update is running"
  | .anotherUpdate => "another update is running"
  | .openCursors count => s!"{count} cursors are still open"

/-- Something is used after its index was released. -/
inductive Stale where
  | cursor
  | index
  | custom (message : String)
  deriving DecidableEq, Repr

def Stale.message : Stale → String
  | .cursor => "cursor used after its index was released"
  | .index => "index has been released"
  | .custom message => message

inductive Failure where
  | row (fault : RowFault)
  | schema (store : String) (fault : SchemaFault)
  | connection (fault : ConnectionFault)
  /-- The schema of a closed store is looked at. -/
  | disconnected
  /-- A statement belongs to a store that was closed meanwhile. -/
  | closedBeneath
  /-- A number does not fit into a signed word of 64 bits. -/
  | integerRange
  | numeral (error : Text.NumeralError)
  | notAFloat (text : String)
  | unknownMode (text : String)
  | nulInPath
  | copyOntoItself
  /-- The links of a path lead round in a circle. -/
  | linkLoop (start : String)
  /-- A path is relative, and the directory it starts from is gone. -/
  | noWorkingDirectory
  | path (error : PathError)
  | busy (reason : Busy)
  | stale (reason : Stale)
  | exhausted
  | unknownStage (name : String)
  /-- Nothing is held under a name. -/
  | unknownName (name : String)
  /-- The owner of a transaction gives it up. -/
  | abandoned
  deriving DecidableEq, Repr

def Failure.message : Failure → String
  | .row fault => fault.message
  | .schema store fault => fault.message store
  | .connection fault => fault.message
  | .disconnected => "the store has no connection"
  | .closedBeneath => "Cannot operate on a closed database."
  | .integerRange => "Python int too large to convert to SQLite INTEGER"
  | .numeral error => error.message
  | .notAFloat text => s!"could not convert string to float: {quoted text}"
  | .unknownMode text => s!"{quoted text} is not a valid ParameterMode"
  | .nulInPath => "embedded null byte"
  | .copyOntoItself => "target cannot be the same connection instance"
  | .linkLoop start => s!"Symlink loop from {quoted start}"
  | .noWorkingDirectory => "[Errno 2] No such file or directory"
  | .path error => error.message
  | .busy reason => reason.message
  | .stale reason => reason.message
  | .exhausted => "cursor has no current element"
  | .unknownStage name => quoted name
  | .unknownName name => quoted name
  | .abandoned => "the transaction was given up"

end Crossref
