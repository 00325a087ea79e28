/-
Linking a batch of compilation units. First every owned declaration of every unit is registered, which gives each key
its id; then every target, scope and parameter is looked up. A key that the batch does not declare is asked for once
outside the batch, and a key that nobody knows stays pending.
-/
import Crossref.Artifact.Unit

namespace Crossref

/-- The keys that a batch declares, each once, in the order in which they were first registered. -/
structure KeyTable where
  entries : List (EntityKey × Int)
  deriving DecidableEq, Repr

namespace KeyTable

def empty : KeyTable := ⟨[]⟩

/-- A later id for a key replaces the earlier one and keeps its place. -/
def insert (t : KeyTable) (key : EntityKey) (id : Int) : KeyTable :=
  if t.entries.any (·.1 = key) then ⟨t.entries.map fun e => if e.1 = key then (key, id) else e⟩
  else ⟨t.entries ++ [(key, id)]⟩

def ofList (entries : List (EntityKey × Int)) : KeyTable :=
  entries.foldl (fun t e => t.insert e.1 e.2) empty

def size (t : KeyTable) : Nat :=
  t.entries.length

def contains (t : KeyTable) (key : EntityKey) : Bool :=
  t.entries.any (·.1 = key)

/-- The id of a key; a key without a name takes the first key registered at its location. -/
def get? (t : KeyTable) (key : EntityKey) : Option Int :=
  (t.entries.find? fun e => if key.name = "" then e.1.location = key.location else e.1 = key).map (·.2)

/-- The id of a key that the batch declares. -/
def idOf (t : KeyTable) (key : EntityKey) : Int :=
  (t.get? key).getD 0

end KeyTable

/-- The answers got from outside the batch so far, in the order in which they were asked for. -/
abbrev Memo := List (EntityKey × Option Int)

section
variable {m : Type → Type} [Monad m]

/-- Answers a key from the table, else from the memo, else from outside. -/
def KeyTable.lookup (t : KeyTable) (outside : Option (EntityKey → m (Option Int))) (key : EntityKey) :
    StateT Memo m (Option Int) := do
  match t.get? key, outside with
  | some id, _ => pure (some id)
  | none, none => pure none
  | none, some ask =>
    match (← get).lookup key with
    | some answer => pure answer
    | none =>
      let answer ← ask key
      modify (· ++ [(key, answer)])
      pure answer

/-- What a key denotes after linking. -/
inductive Link where
  | linked (id : Int)
  | pending (key : EntityKey)
  deriving DecidableEq, Repr

def Link.id? : Link → Option Int
  | .linked id => some id
  | .pending _ => none

def Link.pending? : Link → Option EntityKey
  | .linked _ => none
  | .pending key => some key

structure LinkedReference where
  target : Link
  location : Location
  kind : ReferenceKind
  scope : Option Link
  deriving DecidableEq, Repr

structure LinkedParameter where
  owner : Int
  parameter : Link
  mode : ParameterMode
  ordinal : Nat
  deriving DecidableEq, Repr

structure LinkedUnit where
  unit : CompilationUnit
  declarations : List (Int × Declaration)
  references : List LinkedReference
  parameters : List LinkedParameter
  deriving DecidableEq, Repr

/-- How many references and parameters of a unit are pending. -/
def LinkedUnit.unresolved (u : LinkedUnit) : Nat :=
  (u.references.filter (·.target.id?.isNone)).length + (u.parameters.filter (·.parameter.id?.isNone)).length

/-- Registers every owned declaration of every unit. -/
def register (register : Declaration → m Int) (units : List CompilationUnit) : m KeyTable :=
  (units.flatMap (·.owned)).foldlM (fun t d => do pure (t.insert d.key (← register d))) .empty

def link (t : KeyTable) (outside : Option (EntityKey → m (Option Int))) (key : EntityKey) :
    StateT Memo m Link := do
  match ← t.lookup outside key with
  | some id => pure (.linked id)
  | none => pure (.pending key)

def linkReference (t : KeyTable) (outside : Option (EntityKey → m (Option Int))) (r : Reference) :
    StateT Memo m LinkedReference := do
  let target ← link t outside r.target
  let scope ← r.scope.mapM (link t outside)
  pure ⟨target, r.location, r.kind, scope⟩

def linkParameter (t : KeyTable) (outside : Option (EntityKey → m (Option Int))) (p : Parameter) :
    StateT Memo m LinkedParameter := do
  let parameter ← link t outside p.key
  pure ⟨t.idOf p.owner, parameter, p.mode, p.ordinal⟩

/-- A parameter belongs to the unit that owns its subprogram; the others are left out. -/
def linkUnit (t : KeyTable) (outside : Option (EntityKey → m (Option Int))) (u : CompilationUnit) :
    StateT Memo m LinkedUnit := do
  let references ← u.references.mapM (linkReference t outside)
  let own := u.parameters.filter fun p => u.owned.any (·.key = p.owner)
  let parameters ← own.mapM (linkParameter t outside)
  pure ⟨u, u.owned.map fun d => (t.idOf d.key, d), references, parameters⟩

def linkBatch (register : Declaration → m Int) (outside : Option (EntityKey → m (Option Int)))
    (units : List CompilationUnit) : m (List LinkedUnit) := do
  let t ← Crossref.register register units
  (units.mapM (linkUnit t outside)).run' []

end

end Crossref
