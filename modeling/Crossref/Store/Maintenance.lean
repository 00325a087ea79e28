/-
Maintenance. An entity without a declaration is an orphan. `detachUndeclared` turns every link to an orphan back into
the key of the orphan, `pruneOrphans` then takes the orphans out, and `relinkPending` links the keys of entities that
are there now. Each answers how many links or entities it changed.
-/
import Crossref.Store.Basic

namespace Crossref

namespace Contents

def isDeclared (c : Contents) (e : EntityRow) : Bool :=
  c.declarations.any (·.entityId = e.id)

def orphans (c : Contents) : List EntityRow :=
  c.entities.filter fun e => !c.isDeclared e

def orphan? (c : Contents) (id : Option Int) : Option EntityRow :=
  c.entities.find? fun e => id = some e.id && !c.isDeclared e

end Contents

namespace StoredLink

/-- A link to an orphan becomes the orphan's key. -/
def detach (c : Contents) (l : StoredLink) : StoredLink :=
  match c.orphan? l.id with
  | some e => ⟨none, e.pendingKey⟩
  | none => l

/-- The entity with the least id that a pending link awaits. -/
def awaited? (c : Contents) (l : StoredLink) : Option EntityRow :=
  if l.id.isSome then none else c.entities.find? l.pending.accepts

def relink (c : Contents) (l : StoredLink) : StoredLink :=
  match l.awaited? c with
  | some e => ⟨some e.id, {}⟩
  | none => l

end StoredLink

namespace Contents

def detachTargets (c : Contents) : Contents :=
  { c with references := c.references.map fun r => { r with target := r.target.detach c } }

def detachScopes (c : Contents) : Contents :=
  { c with references := c.references.map fun r => { r with scope := r.scope.detach c } }

def detachParameters (c : Contents) : Contents :=
  { c with parameters := c.parameters.map fun p => { p with parameter := p.parameter.detach c } }

def dropOrphanParameters (c : Contents) : Contents :=
  { c with parameters := c.parameters.filter fun p => (c.orphan? (some p.ownerId)).isNone }

/-- No link and no parameter owner is an orphan. -/
def orphansFree (c : Contents) : Bool :=
  c.references.all (fun r => (c.orphan? r.target.id).isNone && (c.orphan? r.scope.id).isNone) &&
    c.parameters.all fun p => (c.orphan? (some p.ownerId)).isNone && (c.orphan? p.parameter.id).isNone

def dropOrphans (c : Contents) : Except RowFault Contents :=
  if c.orphansFree then .ok { c with entities := c.entities.filter c.isDeclared } else .error .foreignKey

def relinkTargets (c : Contents) : Contents :=
  { c with references := c.references.map fun r => { r with target := r.target.relink c } }

def relinkScopes (c : Contents) : Contents :=
  { c with references := c.references.map fun r => { r with scope := r.scope.relink c } }

def relinkParameters (c : Contents) : Contents :=
  { c with parameters := c.parameters.map fun p => { p with parameter := p.parameter.relink c } }

end Contents

namespace Store

open StoreM

/-- A change of one kind of link, which answers how many links it changes. -/
def changeLinks (tables : List Table) (changes : Contents → Nat) (change : Contents → Contents) : StoreM Nat := do
  needTables tables
  needParents [.files, .entities]
  let count := changes (← get).contents
  step [] fun c => .ok (change c)
  pure count

def detachUndeclared : StoreM Nat := do
  let isGone (c : Contents) (l : StoredLink) : Bool := (c.orphan? l.id).isSome
  let targets ← changeLinks [.references, .entities, .declarations]
    (fun c => c.references.countP fun r => isGone c r.target) Contents.detachTargets
  let scopes ← changeLinks [.references, .entities, .declarations]
    (fun c => c.references.countP fun r => isGone c r.scope) Contents.detachScopes
  let parameters ← changeLinks [.parameters, .entities, .declarations]
    (fun c => c.parameters.countP fun p => isGone c p.parameter) Contents.detachParameters
  execute [.parameters, .entities, .declarations] [.files] [] fun c => .ok c.dropOrphanParameters
  pure (targets + scopes + parameters)

/-- Takes the orphans out; links to them have to be detached before. -/
def pruneOrphans : StoreM Nat := do
  needTables [.entities, .declarations]
  needParents [.files]
  let count := (← get).contents.orphans.length
  step [] Contents.dropOrphans
  pure count

def relinkPending : StoreM Nat := do
  let isHere (c : Contents) (l : StoredLink) : Bool := (l.awaited? c).isSome
  let targets ← changeLinks [.references, .entities]
    (fun c => c.references.countP fun r => isHere c r.target) Contents.relinkTargets
  let scopes ← changeLinks [.references, .entities]
    (fun c => c.references.countP fun r => isHere c r.scope) Contents.relinkScopes
  let parameters ← changeLinks [.parameters, .entities]
    (fun c => c.parameters.countP fun p => isHere c p.parameter) Contents.relinkParameters
  pure (targets + scopes + parameters)

end Store

end Crossref
