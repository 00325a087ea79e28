/-
An index without ids. The listing of contents gives every row by the names behind
its ids, so two stores with the same listing are the same index under other ids.
Settled contents list what their ledger says: a key is linked exactly if its
entity is in the ledger.
-/
import Crossref.Proofs.Disjoint
import Crossref.Proofs.Store.Links

namespace Crossref

/-- The key of the entity that a link leads to, or the key that it awaits. -/
inductive LinkFact where
  | linked (key : EntityKey)
  | awaiting (key : EntityKey)
  deriving DecidableEq, Repr

structure ReferenceEntry where
  artifact : String
  location : Location
  kind : String
  target : LinkFact
  scope : Option LinkFact
  deriving DecidableEq, Repr

structure ParameterEntry where
  owner : EntityKey
  ordinal : Int
  mode : String
  parameter : LinkFact
  artifact : String
  deriving DecidableEq, Repr

structure Listing where
  /-- Path, unit name and checksum. -/
  artifacts : List (String × String × String)
  dependencies : List DependencyFact
  entities : List EntityFact
  declarations : List Claim
  references : List ReferenceEntry
  parameters : List ParameterEntry
  deriving DecidableEq, Repr

/-- The same index: in every table the same rows, each as often. -/
structure Listing.Same (l l' : Listing) : Prop where
  artifacts : l.artifacts.Perm l'.artifacts
  dependencies : l.dependencies.Perm l'.dependencies
  entities : l.entities.Perm l'.entities
  declarations : l.declarations.Perm l'.declarations
  references : l.references.Perm l'.references
  parameters : l.parameters.Perm l'.parameters

/-! ## The listing of contents -/

namespace Contents

def linkFact? (c : Contents) : StoredLink → Option LinkFact
  | ⟨some id, ⟨none, none, none, none⟩⟩ => (c.names.key? id).map .linked
  | ⟨none, ⟨some name, some file, some line, some column⟩⟩ =>
    (c.filePath? file).map fun path => .awaiting ⟨name, path, line, column⟩
  | _ => none

def scopeFact? (c : Contents) (l : StoredLink) : Option (Option LinkFact) :=
  if l = {} then some none else (c.linkFact? l).map some

def listArtifact? (c : Contents) (r : ArtifactRow) : Option (String × String × String) :=
  (c.filePath? r.fileId).map fun path => (path, r.unitName, r.checksum)

def listDependency? (c : Contents) (r : DependencyRow) : Option DependencyFact := do
  let artifact ← c.filePath? r.artifactId
  let path ← c.filePath? r.fileId
  pure ⟨artifact, path, r.stamp, r.checksum⟩

def listEntity? (c : Contents) (r : EntityRow) : Option EntityFact :=
  (c.keyOf? r).map fun key => ⟨key, r.kind⟩

def listDeclaration? (c : Contents) (r : DeclarationRow) : Option Claim := do
  let key ← c.names.key? r.entityId
  let artifact ← c.filePath? r.artifactId
  pure ⟨key, artifact, r.libraryLevel⟩

def listReference? (c : Contents) (r : ReferenceRow) : Option ReferenceEntry := do
  let artifact ← c.filePath? r.artifactId
  let file ← c.filePath? r.fileId
  let target ← c.linkFact? r.target
  let scope ← c.scopeFact? r.scope
  pure ⟨artifact, ⟨file, r.line, r.column⟩, r.kind, target, scope⟩

def listParameter? (c : Contents) (r : ParameterRow) : Option ParameterEntry := do
  let owner ← c.names.key? r.ownerId
  let parameter ← c.linkFact? r.parameter
  let artifact ← c.filePath? r.artifactId
  pure ⟨owner, r.ordinal, r.mode, parameter, artifact⟩

/-- All rows by name; none if some id has no name. -/
def listing? (c : Contents) : Option Listing := do
  let artifacts ← c.artifacts.mapM c.listArtifact?
  let dependencies ← c.dependencies.mapM c.listDependency?
  let entities ← c.entities.mapM c.listEntity?
  let declarations ← c.declarations.mapM c.listDeclaration?
  let references ← c.references.mapM c.listReference?
  let parameters ← c.parameters.mapM c.listParameter?
  pure ⟨artifacts, dependencies, entities, declarations, references, parameters⟩

end Contents

/-! ## The listing of a ledger -/

namespace Ledger

def link (L : Ledger) (k : EntityKey) : LinkFact :=
  if L.entities.any (·.key = k) then .linked k else .awaiting k

def referenceEntry (L : Ledger) (f : ReferenceFact) : ReferenceEntry :=
  ⟨f.artifact, f.location, f.kind, L.link f.target, f.scope.map L.link⟩

def parameterEntry (L : Ledger) (f : ParameterFact) : ParameterEntry :=
  ⟨f.owner, f.ordinal, f.mode, L.link f.key, f.artifact⟩

def listing (L : Ledger) : Listing where
  artifacts := L.artifacts.map ArtifactFact.said
  dependencies := L.dependencies
  entities := L.entities
  declarations := L.claims
  references := L.references.map L.referenceEntry
  parameters := L.parameters.map L.parameterEntry

theorem Same.link_eq {L L' : Ledger} (h : L.Same L') : L.link = L'.link := by
  funext k
  unfold link
  rw [h.entities.any_eq]

theorem Same.listing {L L' : Ledger} (h : L.Same L') : L.listing.Same L'.listing where
  artifacts := h.artifacts
  dependencies := h.dependencies
  entities := h.entities
  declarations := h.claims
  references := by
    have hentry : L.referenceEntry = L'.referenceEntry := by
      funext f
      simp only [referenceEntry, h.link_eq]
    change (L.references.map L.referenceEntry).Perm (L'.references.map L'.referenceEntry)
    rw [hentry]
    exact h.references.map _
  parameters := by
    have hentry : L.parameterEntry = L'.parameterEntry := by
      funext f
      simp only [parameterEntry, h.link_eq]
    change (L.parameters.map L.parameterEntry).Perm (L'.parameters.map L'.parameterEntry)
    rw [hentry]
    exact h.parameters.map _

end Ledger

/-! ## What settled contents list -/

theorem mapM_eq_some {α β : Type} {f : α → Option β} {l : List α} {l' : List β}
    (h : List.Forall₂ (fun a b => f a = some b) l l') : l.mapM f = some l' := by
  induction h with
  | nil => rfl
  | cons hab _ ih => simp [List.mapM_cons, hab, ih]

namespace Contents

variable {c : Contents} {L : Ledger}

theorem Mirrors.linkFact?_eq (h : c.Mirrors L) {l : StoredLink} {k : EntityKey} (hl : c.names.Shows l k)
    (hk : k.name ≠ "") (ha : l.awaited? c = none) : c.linkFact? l = some (L.link k) := by
  obtain ⟨k', hl, hcovers⟩ := hl
  obtain rfl := hcovers.eq_of_named hk
  unfold Ledger.link
  cases hl with
  | linked hid =>
    rw [if_pos (h.knows_iff.1 (h.sound.knows_iff.2 ⟨_, hid⟩))]
    exact congrArg (Option.map _) hid
  | awaiting hfile =>
    rw [if_neg (mt h.knows_iff.2 (h.sound.not_knows_of_awaited? hfile ha))]
    exact congrArg (Option.map _) hfile

theorem Mirrors.scopeFact?_eq (h : c.Mirrors L) {l : StoredLink} {k : Option EntityKey}
    (hl : c.names.ShowsScope l k) (hk : ∀ k' ∈ k, k'.name ≠ "") (ha : l.awaited? c = none) :
    c.scopeFact? l = some (k.map L.link) := by
  cases k with
  | none => exact if_pos hl
  | some k =>
    have hne : l ≠ {} := by
      intro heq
      subst heq
      obtain ⟨_, hl, -⟩ := hl
      cases hl
    rw [scopeFact?, if_neg hne, h.linkFact?_eq hl (hk k rfl) ha]
    rfl

/-- **Settled contents list what the ledger says.** -/
theorem Mirrors.listing?_eq (h : c.Mirrors L) (hs : c.Settled)
    (hreferences : ∀ f ∈ L.references, f.Named)
    (hparameters : ∀ f ∈ L.parameters, f.key.name ≠ "") : c.listing? = some L.listing := by
  have hartifacts : c.artifacts.mapM c.listArtifact? = some (L.artifacts.map ArtifactFact.said) := by
    refine mapM_eq_some (List.forall₂_map_right_iff.2 (h.artifacts.imp fun r f hr => ?_))
    simp [listArtifact?, ArtifactFact.said, show c.filePath? r.fileId = _ from hr.path,
      hr.unitName, hr.checksum]
  have hdependencies : c.dependencies.mapM c.listDependency? = some L.dependencies := by
    refine mapM_eq_some (h.dependencies.imp fun r f hr => ?_)
    simp [listDependency?, show c.filePath? r.artifactId = _ from hr.artifact,
      show c.filePath? r.fileId = _ from hr.path, hr.stamp, hr.checksum]
  have hentities : c.entities.mapM c.listEntity? = some L.entities := by
    refine mapM_eq_some (h.entities.imp fun r f hr => ?_)
    simp [listEntity?, keyOf?_eq_some.2 ⟨hr.file, hr.name, hr.line, hr.column⟩, hr.kind]
  have hdeclarations : c.declarations.mapM c.listDeclaration? = some L.claims := by
    refine mapM_eq_some (h.claims.imp fun r f hr => ?_)
    simp [listDeclaration?, hr.key, show c.filePath? r.artifactId = _ from hr.artifact, hr.libraryLevel]
  have hrefs : c.references.mapM c.listReference? = some (L.references.map L.referenceEntry) := by
    refine mapM_eq_some (List.forall₂_map_right_iff.2
      (forall₂_imp_mem h.references fun r f hr hf hreads => ?_))
    have hnamed := hreferences f hf
    have htarget := h.linkFact?_eq hreads.target hnamed.target (hs.targets r hr)
    have hscope := h.scopeFact?_eq hreads.scope hnamed.scope (hs.scopes r hr)
    simp [listReference?, Ledger.referenceEntry, htarget, hscope, hreads.line, hreads.column, hreads.kind,
      show c.filePath? r.artifactId = _ from hreads.artifact,
      show c.filePath? r.fileId = _ from hreads.file]
  have hparams : c.parameters.mapM c.listParameter? = some (L.parameters.map L.parameterEntry) := by
    refine mapM_eq_some (List.forall₂_map_right_iff.2
      (forall₂_imp_mem h.parameters fun r f hr hf hreads => ?_))
    simp [listParameter?, Ledger.parameterEntry, hreads.owner, hreads.ordinal, hreads.mode,
      h.linkFact?_eq hreads.parameter (hparameters f hf) (hs.parameters r hr),
      show c.filePath? r.artifactId = _ from hreads.artifact]
  simp [listing?, Ledger.listing, hartifacts, hdependencies, hentities, hdeclarations, hrefs, hparams]

end Contents

end Crossref
