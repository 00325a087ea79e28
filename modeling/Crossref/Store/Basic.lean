/-
An open store and the statements on it. A statement first needs its tables, then its numbers must fit, then the store
must be writable if it writes; a statement that fails changes nothing. Statements of one operation take effect one by
one. A transaction groups operations: blocks nest, and the outermost one begins a transaction and ends it, keeping the
work or taking it back. A statement for which there is no room takes the work back at once and ends the transaction
itself, while the blocks are still open. A store keeps a journal: without one nobody could say what is taken back.
-/
import Crossref.Store.Contents

namespace Crossref

/-- How far the transaction of a store has got. What it takes back to is settled by its first statement. -/
inductive Transaction where
  | idle
  | begun
  | running (saved : Contents)
  deriving DecidableEq, Repr

structure Store where
  path : String
  readOnly : Bool
  contents : Contents
  /-- How many transaction blocks are open. -/
  depth : Nat := 0
  transaction : Transaction := .idle
  deriving DecidableEq, Repr

def Transaction.isRunning : Transaction → Bool
  | .running _ => true
  | _ => false

/-- A statement runs. -/
def Transaction.start (t : Transaction) (c : Contents) : Transaction :=
  match t with
  | .begun => .running c
  | t => t

/-- The contents after the transaction is taken back. -/
def Transaction.restore (t : Transaction) (c : Contents) : Contents :=
  match t with
  | .running saved => saved
  | _ => c

namespace Store

def start (s : Store) : Store :=
  { s with transaction := s.transaction.start s.contents }

/-- Ends the transaction and keeps nothing of it. -/
def takeBack (s : Store) : Store :=
  { s with contents := s.transaction.restore s.contents, transaction := .idle }

/-- Opens a block; the outermost one begins a transaction. -/
def enter (s : Store) : Store :=
  { s with depth := s.depth + 1, transaction := if s.depth = 0 then .begun else s.transaction }

end Store

/-- An operation on a store; what it did before it failed stays done. -/
abbrev StoreM := ExceptT Failure (StateM Store)

/-- The number fits into a signed word of 64 bits. -/
def fitsWord (n : Int) : Bool :=
  -0x8000000000000000 ≤ n && n < 0x8000000000000000

namespace StoreM

def refuse {α : Type} (fault : RowFault) : StoreM α :=
  throw (.row fault)

/-- The tables that a statement reads or writes, in the order in which they are looked for. -/
def needTables (tables : List Table) : StoreM PUnit := do
  let c := (← get).contents
  match tables.find? fun t => !c.has t with
  | some t => refuse (.noSuchTable t.name)
  | none => pure ()

/-- The tables whose rows the written rows name. -/
def needParents (tables : List Table) : StoreM PUnit := do
  let c := (← get).contents
  match tables.find? fun t => !c.has t with
  | some t => refuse (.noSuchTable ("main." ++ t.name))
  | none => pure ()

def needWords (numbers : List Int) : StoreM PUnit :=
  if numbers.all fitsWord then pure () else throw .integerRange

def needWritable : StoreM PUnit := do
  if (← get).readOnly then refuse .readOnly

/-- A statement that only reads. -/
def query {α : Type} (tables : List Table) (numbers : List Int) (answer : Contents → α) : StoreM α := do
  needTables tables
  needWords numbers
  modify Store.start
  pure (answer (← get).contents)

/-- Changes the contents. Where there is no room for the change, the whole transaction is taken back. -/
def become (change : Contents → Except RowFault Contents) : StoreM PUnit := do
  modify Store.start
  match change (← get).contents with
  | .ok c => modify fun s => { s with contents := c }
  | .error .full => do
    modify Store.takeBack
    refuse .full
  | .error fault => refuse fault

/-- Runs a statement that writes, once what it needs is known to be there. -/
def step (numbers : List Int) (change : Contents → Except RowFault Contents) : StoreM PUnit := do
  needWords numbers
  needWritable
  become change

def execute (tables parents : List Table) (numbers : List Int) (change : Contents → Except RowFault Contents) :
    StoreM PUnit := do
  needTables tables
  needParents parents
  step numbers change

/-- The same statement for each row in turn; the rows before one that fails stay written. -/
def executeAll {ρ : Type} (tables parents : List Table) (numbers : ρ → List Int)
    (change : ρ → Contents → Except RowFault Contents) (rows : List ρ) : StoreM PUnit := do
  needTables tables
  needParents parents
  rows.forM fun r => step (numbers r) (change r)

/-! Blocks -/

/-- Ends a block that went well; the outermost one keeps the work of the transaction. -/
def leave : StoreM PUnit := do
  modify fun s => { s with depth := s.depth - 1 }
  let s ← get
  if s.depth = 0 then
    if s.transaction = .idle then refuse .cannotCommit else set { s with transaction := .idle }

/-- Ends a block that failed; the outermost one takes everything back. -/
def abandon : StoreM PUnit := do
  modify fun s => { s with depth := s.depth - 1 }
  let s ← get
  if s.depth = 0 then
    if s.transaction = .idle then refuse .cannotRollback else set s.takeBack

/-- Runs an operation as one block. -/
def transaction {α : Type} (body : StoreM α) : StoreM α := do
  modify Store.enter
  let a ← tryCatch body fun e => do
    abandon
    throw e
  leave
  pure a

end StoreM

end Crossref
