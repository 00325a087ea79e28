/-
The names behind the ids of a store. `Names` reads a file id as a path and an
entity id as a key; a link reads as the key of the entity it leads to, or as the
key it waits for. `Names.Shows n l k` says that a link `l` stands for the key `k`:
it may read as a key with a name where `k` has none. Reading goes on working while
files and entities are added (`Names.Extends`).
-/
import Crossref.Proofs.Ledger
import Crossref.Proofs.Store.Outcome

namespace Crossref

/-! ## Keys -/

/-- `k'` names what `k` asks for: a key without a name asks for whatever is at its place. -/
def EntityKey.Covers (k k' : EntityKey) : Prop :=
  k'.location = k.location ∧ (k.name = "" ∨ k'.name = k.name)

theorem EntityKey.ext_location {k k' : EntityKey} (hn : k'.name = k.name)
    (hl : k'.location = k.location) : k' = k := by
  cases k
  cases k'
  simp only [EntityKey.location, Location.mk.injEq] at hl
  obtain ⟨rfl, rfl, rfl⟩ := hl
  simp only at hn
  rw [hn]

theorem EntityKey.Covers.refl (k : EntityKey) : k.Covers k :=
  ⟨rfl, .inr rfl⟩

theorem EntityKey.Covers.trans {a b c : EntityKey} (h₁ : a.Covers b) (h₂ : b.Covers c) :
    a.Covers c := by
  refine ⟨h₂.1.trans h₁.1, ?_⟩
  rcases h₁.2 with h | h
  · exact .inl h
  · rcases h₂.2 with h' | h'
    · exact .inl (h ▸ h')
    · exact .inr (h'.trans h)

/-- A key with a name covers only itself. -/
theorem EntityKey.Covers.eq_of_named {k k' : EntityKey} (h : k.Covers k') (hk : k.name ≠ "") : k' = k :=
  EntityKey.ext_location (h.2.resolve_left hk) h.1

/-- The key as it is stored for an entity that is awaited. -/
def EntityKey.pendingAt (k : EntityKey) (file : Int) : PendingKey :=
  ⟨some k.name, some file, some k.line, some k.column⟩

/-! ## Reading ids -/

structure Names where
  path? : Int → Option String
  key? : Int → Option EntityKey

/-- The key of a row. -/
def Contents.keyOf? (c : Contents) (e : EntityRow) : Option EntityKey :=
  (c.filePath? e.fileId).map fun path => ⟨e.name, path, e.line, e.column⟩

def Contents.names (c : Contents) : Names where
  path? := c.filePath?
  key? id := (c.entities.find? (·.id = id)).bind c.keyOf?

namespace Names

variable {n n' : Names}

/-- What `n` reads, `n'` reads the same way. -/
structure Extends (n n' : Names) : Prop where
  path : ∀ {id path}, n.path? id = some path → n'.path? id = some path
  key : ∀ {id key}, n.key? id = some key → n'.key? id = some key

theorem Extends.refl (n : Names) : n.Extends n :=
  ⟨id, id⟩

theorem Extends.trans {a b c : Names} (h₁ : a.Extends b) (h₂ : b.Extends c) : a.Extends c :=
  ⟨h₂.path ∘ h₁.path, h₂.key ∘ h₁.key⟩

/-- A link reads as the key of its entity, or as the key that it awaits. -/
inductive Reads (n : Names) : StoredLink → EntityKey → Prop
  | linked {id : Int} {k : EntityKey} (h : n.key? id = some k) : Reads n ⟨some id, {}⟩ k
  | awaiting {file : Int} {k : EntityKey} (h : n.path? file = some k.file) :
      Reads n ⟨none, k.pendingAt file⟩ k

theorem Reads.extend {l : StoredLink} {k : EntityKey} (h : n.Reads l k) (hn : n.Extends n') :
    n'.Reads l k := by
  cases h with
  | linked h => exact .linked (hn.key h)
  | awaiting h => exact .awaiting (hn.path h)

def Shows (n : Names) (l : StoredLink) (k : EntityKey) : Prop :=
  ∃ k', n.Reads l k' ∧ k.Covers k'

theorem Shows.extend {l : StoredLink} {k : EntityKey} (h : n.Shows l k) (hn : n.Extends n') :
    n'.Shows l k :=
  let ⟨k', h', hk⟩ := h
  ⟨k', h'.extend hn, hk⟩

/-- A scope that may be missing. -/
def ShowsScope (n : Names) (l : StoredLink) : Option EntityKey → Prop
  | none => l = {}
  | some k => n.Shows l k

theorem ShowsScope.extend {l : StoredLink} :
    ∀ {k : Option EntityKey}, n.ShowsScope l k → n.Extends n' → n'.ShowsScope l k
  | none, h, _ => h
  | some _, h, hn => Shows.extend h hn

/-! ## Reading rows -/

structure ArtifactReads (n : Names) (r : ArtifactRow) (f : ArtifactFact) : Prop where
  path : n.path? r.fileId = some f.path
  unitName : r.unitName = f.unitName
  mtime : r.mtime = f.mtime
  checksum : r.checksum = f.checksum

structure DependencyReads (n : Names) (r : DependencyRow) (f : DependencyFact) : Prop where
  artifact : n.path? r.artifactId = some f.artifact
  path : n.path? r.fileId = some f.path
  stamp : r.stamp = f.stamp
  checksum : r.checksum = f.checksum

structure EntityReads (n : Names) (r : EntityRow) (f : EntityFact) : Prop where
  file : n.path? r.fileId = some f.key.file
  name : r.name = f.key.name
  line : r.line = f.key.line
  column : r.column = f.key.column
  kind : r.kind = f.kind

structure ClaimReads (n : Names) (r : DeclarationRow) (f : Claim) : Prop where
  key : n.key? r.entityId = some f.key
  artifact : n.path? r.artifactId = some f.artifact
  libraryLevel : r.libraryLevel = f.libraryLevel

structure ReferenceReads (n : Names) (r : ReferenceRecord) (f : ReferenceFact) : Prop where
  target : n.Shows r.target f.target
  artifact : n.path? r.artifactId = some f.artifact
  file : n.path? r.fileId = some f.location.file
  line : r.line = f.location.line
  column : r.column = f.location.column
  kind : r.kind = f.kind
  scope : n.ShowsScope r.scope f.scope

structure ParameterReads (n : Names) (r : ParameterRow) (f : ParameterFact) : Prop where
  owner : n.key? r.ownerId = some f.owner
  ordinal : r.ordinal = f.ordinal
  parameter : n.Shows r.parameter f.key
  mode : r.mode = f.mode
  artifact : n.path? r.artifactId = some f.artifact

variable (hn : n.Extends n')
include hn

theorem ArtifactReads.extend {r : ArtifactRow} {f : ArtifactFact} (h : n.ArtifactReads r f) :
    n'.ArtifactReads r f :=
  { h with path := hn.path h.path }

theorem DependencyReads.extend {r : DependencyRow} {f : DependencyFact} (h : n.DependencyReads r f) :
    n'.DependencyReads r f :=
  { h with artifact := hn.path h.artifact, path := hn.path h.path }

theorem EntityReads.extend {r : EntityRow} {f : EntityFact} (h : n.EntityReads r f) :
    n'.EntityReads r f :=
  { h with file := hn.path h.file }

theorem ClaimReads.extend {r : DeclarationRow} {f : Claim} (h : n.ClaimReads r f) : n'.ClaimReads r f :=
  { h with key := hn.key h.key, artifact := hn.path h.artifact }

theorem ReferenceReads.extend {r : ReferenceRecord} {f : ReferenceFact} (h : n.ReferenceReads r f) :
    n'.ReferenceReads r f :=
  { h with
    target := h.target.extend hn
    artifact := hn.path h.artifact
    file := hn.path h.file
    scope := h.scope.extend hn }

theorem ParameterReads.extend {r : ParameterRow} {f : ParameterFact} (h : n.ParameterReads r f) :
    n'.ParameterReads r f :=
  { h with owner := hn.key h.owner, parameter := h.parameter.extend hn, artifact := hn.path h.artifact }

end Names

end Crossref
