/-
Statements on rows, beside their ledger counterparts: purging and touching an
artifact, and writing an entity, a declaration, a dependency, a reference, a
parameter or an artifact. A row that reads as a fact is never refused.
-/
import Crossref.Proofs.Store.Mirror

namespace Crossref.Contents

variable {c : Contents} {L : Ledger}

/-! ## Ids and names select the same rows -/

theorem eq_iff_of_inj {α : Type} {read : Int → Option α}
    (hinj : ∀ {id id' : Int} {a : α}, read id = some a → read id' = some a → id = id') {id id' : Int} {a a' : α}
    (h₁ : read id = some a) (h₂ : read id' = some a') : id = id' ↔ a = a' := by
  constructor
  · intro heq
    subst heq
    exact Option.some.inj (h₁.symm.trans h₂)
  · intro heq
    subst heq
    exact hinj h₁ h₂

theorem Sound.file_eq_iff (h : c.Sound) {id id' : Int} {path path' : String}
    (h₁ : c.filePath? id = some path) (h₂ : c.filePath? id' = some path') : id = id' ↔ path = path' :=
  eq_iff_of_inj h.path_inj h₁ h₂

theorem Sound.entity_eq_iff (h : c.Sound) {id id' : Int} {k k' : EntityKey}
    (h₁ : c.names.key? id = some k) (h₂ : c.names.key? id' = some k') : id = id' ↔ k = k' :=
  eq_iff_of_inj h.key_inj h₁ h₂

/-! ## Artifacts -/

/-- Without the rows that came from an artifact. -/
def withoutArtifact (c : Contents) (id : Int) : Contents :=
  { c with
    parameters := c.parameters.filter (·.artifactId ≠ id)
    references := c.references.filter (·.artifactId ≠ id)
    declarations := c.declarations.filter (·.artifactId ≠ id)
    dependencies := c.dependencies.filter (·.artifactId ≠ id)
    artifacts := c.artifacts.filter (·.fileId ≠ id) }

theorem Mirrors.withoutArtifact (h : c.Mirrors L) {id : Int} {path : String}
    (hid : c.filePath? id = some path) : (c.withoutArtifact id).Mirrors (L.purge path) where
  sound := { h.sound with declared := fun d hd => h.sound.declared d (List.mem_of_mem_filter hd) }
  entities := h.entities
  artifacts := forall₂_filter h.artifacts fun r f hr => by simp [h.sound.file_eq_iff hr.path hid]
  dependencies := forall₂_filter h.dependencies fun r f hr => by
    simp [h.sound.file_eq_iff hr.artifact hid]
  claims := forall₂_filter h.claims fun r f hr => by simp [h.sound.file_eq_iff hr.artifact hid]
  references := forall₂_filter h.references fun r f hr => by simp [h.sound.file_eq_iff hr.artifact hid]
  parameters := forall₂_filter h.parameters fun r f hr => by simp [h.sound.file_eq_iff hr.artifact hid]

/-- Nothing is said about a file that has no record. -/
theorem Sound.ne_of_unrecorded (h : c.Sound) {path : String} (hp : c.fileId? path = none) {id : Int}
    {path' : String} (hid : c.filePath? id = some path') : path' ≠ path := by
  intro heq
  subst heq
  rw [(h.fileId?_eq_some).2 hid] at hp
  exact absurd hp (by simp)

theorem filter_ne_eq_self {ρ φ : Type} {R : ρ → φ → Prop} {rows : List ρ} {facts : List φ}
    {artifact : φ → String} {path : String} (h : List.Forall₂ R rows facts)
    (hne : ∀ r f, R r f → artifact f ≠ path) :
    facts.filter (fun f => artifact f ≠ path) = facts := by
  refine List.filter_eq_self.2 fun f hf => ?_
  obtain ⟨r, -, hr⟩ := exists_left_of_forall₂ h hf
  simpa using hne r f hr

theorem Mirrors.purge_of_unrecorded (h : c.Mirrors L) {path : String} (hp : c.fileId? path = none) :
    L.purge path = L := by
  have hne : ∀ {id : Int} {path' : String}, c.filePath? id = some path' → path' ≠ path :=
    h.sound.ne_of_unrecorded hp
  simp only [Ledger.purge, filter_ne_eq_self h.artifacts fun _ _ hr => hne hr.path,
    filter_ne_eq_self h.dependencies fun _ _ hr => hne hr.artifact,
    filter_ne_eq_self h.claims fun _ _ hr => hne hr.artifact,
    filter_ne_eq_self h.references fun _ _ hr => hne hr.artifact,
    filter_ne_eq_self h.parameters fun _ _ hr => hne hr.artifact]

theorem Mirrors.touchArtifact (h : c.Mirrors L) {id : Int} {path : String}
    (hid : c.filePath? id = some path) (mtime : Int) :
    (c.touchArtifact id mtime).Mirrors (L.touch path mtime) :=
  { h with
    sound := { h.sound with }
    artifacts := forall₂_map h.artifacts fun r f hr => by
      simp only [h.sound.file_eq_iff hr.path hid]
      split
      · exact { hr with mtime := rfl }
      · exact hr }

theorem Mirrors.touch_of_unrecorded (h : c.Mirrors L) {path : String} (hp : c.fileId? path = none)
    (mtime : Int) : L.touch path mtime = L := by
  have hne : ∀ f ∈ L.artifacts, f.path ≠ path := by
    intro f hf
    obtain ⟨r, -, hr⟩ := exists_left_of_forall₂ h.artifacts hf
    exact h.sound.ne_of_unrecorded hp hr.path
  have hmap :
      (L.artifacts.map fun a => if a.path = path then { a with mtime } else a) = L.artifacts := by
    conv => rhs; rw [← List.map_id L.artifacts]
    exact List.map_congr_left fun f hf => by simp [hne f hf]
  simp only [Ledger.touch, hmap]

theorem Mirrors.recordArtifact (h : c.Mirrors L) {r : ArtifactRow} {f : ArtifactFact}
    (hr : c.names.ArtifactReads r f) :
    ∃ c', c.recordArtifact r = .ok c' ∧ c'.names = c.names ∧ c'.Mirrors (L.recordArtifact f) := by
  have hany : (c.artifact? r.fileId).isSome = L.artifacts.any (·.path = f.path) := by
    rw [artifact?, List.isSome_find?]
    exact forall₂_any h.artifacts fun a b hab => by simp [h.sound.file_eq_iff hab.path hr.path]
  unfold Contents.recordArtifact Ledger.recordArtifact
  rw [hany]
  split
  · refine ⟨_, rfl, rfl,
      { h with sound := { h.sound with }, artifacts := forall₂_map h.artifacts fun a b hab => ?_ }⟩
    simp only [h.sound.file_eq_iff hab.path hr.path]
    split
    · exact hr
    · exact hab
  · rw [if_pos (hasFile_of_filePath? hr.path)]
    exact ⟨_, rfl, rfl,
      { h with sound := { h.sound with }, artifacts := forall₂_append_singleton h.artifacts hr }⟩

/-! ## Entities -/

section
variable {entities : List EntityRow} {lastEntity : Int} {facts : List EntityFact}

/-- Rows read the same facts while entities come and change. -/
theorem Mirrors.setEntities (h : c.Mirrors L) (hs : ({ c with entities, lastEntity } : Contents).Sound)
    (hn : c.names.Extends ({ c with entities, lastEntity } : Contents).names)
    (he : List.Forall₂ c.names.EntityReads entities facts) :
    ({ c with entities, lastEntity } : Contents).Mirrors { L with entities := facts } where
  sound := hs
  artifacts := h.artifacts.imp fun _ _ => .extend hn
  dependencies := h.dependencies.imp fun _ _ => .extend hn
  entities := he.imp fun _ _ => .extend hn
  claims := h.claims.imp fun _ _ => .extend hn
  references := h.references.imp fun _ _ => .extend hn
  parameters := h.parameters.imp fun _ _ => .extend hn

end

/-- The row of an entity stands at the place of a key. -/
def isAt (key : EntityKey) (file : Int) (e : EntityRow) : Bool :=
  e.name = key.name && e.fileId = file && e.line = key.line && e.column = key.column

theorem Sound.isAt_iff (h : c.Sound) {key : EntityKey} {file : Int}
    (hfile : c.filePath? file = some key.file) {e : EntityRow} {f : EntityFact}
    (he : c.names.EntityReads e f) : isAt key file e = decide (f.key = key) := by
  have hf := h.file_eq_iff he.file hfile
  obtain ⟨⟨name, path, line, column⟩, kind⟩ := f
  obtain ⟨name', path', line', column'⟩ := key
  simp only at hf
  simp only [isAt, he.name, he.line, he.column, hf, EntityKey.mk.injEq, Bool.decide_and, Bool.and_assoc]

theorem Sound.keyOf?_of_isAt {key : EntityKey} {file : Int} (hfile : c.filePath? file = some key.file)
    {e : EntityRow} (he : isAt key file e = true) : c.keyOf? e = some key := by
  simp only [isAt, Bool.and_eq_true, decide_eq_true_eq] at he
  obtain ⟨⟨⟨hn, rfl⟩, hl⟩, hc⟩ := he
  exact keyOf?_eq_some.2 ⟨hfile, hn, hl, hc⟩

theorem isAt_pendingKey {key : EntityKey} {file : Int} {e : EntityRow} :
    isAt key file e = true ↔ e.pendingKey = key.pendingAt file := by
  simp only [isAt, EntityRow.pendingKey, EntityKey.pendingAt, Bool.and_eq_true, decide_eq_true_eq,
    PendingKey.mk.injEq, Option.some.injEq, and_assoc]

/-- Setting a kind keeps ids and keys. -/
theorem Mirrors.setKind (h : c.Mirrors L) {key : EntityKey} {file : Int}
    (hfile : c.filePath? file = some key.file) (hroom : c.lastEntity < largestId) (kind : String) {c' : Contents}
    (hc : c' = { c with
      entities := c.entities.map fun e => if isAt key file e then { e with kind } else e
      lastEntity := c.lastEntity + 1 }) :
    c'.Mirrors
        { L with entities := L.entities.map fun e => if e.key = key then { e with kind } else e } ∧
      c.names.Extends c'.names := by
  have hid : ∀ e : EntityRow, (if isAt key file e then { e with kind } else e).id = e.id :=
    fun e => by split <;> rfl
  have hpending : ∀ e : EntityRow,
      (if isAt key file e then { e with kind } else e).pendingKey = e.pendingKey :=
    fun e => by split <;> rfl
  have hkey : ∀ e : EntityRow, c.keyOf? (if isAt key file e then { e with kind } else e) = c.keyOf? e :=
    fun e => by split <;> rfl
  have hnames : ∀ id, c'.names.key? id = c.names.key? id := by
    subst hc
    intro id
    change (List.find? _ (List.map _ _)).bind c.keyOf? = _
    rw [find?_map_of_keeps (fun e => by rw [hid]), Option.bind_map]
    exact congrArg _ (funext hkey)
  have hext : c.names.Extends c'.names :=
    ⟨fun hp => by subst hc; exact hp, fun hk => by rw [hnames]; exact hk⟩
  refine ⟨?_, hext⟩
  subst hc
  refine h.setEntities
    { h.sound with
      entityKeys := ?_, entityIds := ?_, entityRange := ?_, lastEntity := ?_, lastEntity_le := hroom } hext ?_
  · rw [List.map_map]
    exact (List.map_congr_left fun e _ => hpending e) ▸ h.sound.entityKeys
  · rw [List.map_map]
    exact (List.map_congr_left fun e _ => hid e) ▸ h.sound.entityIds
  · simp only [List.mem_map]
    intro _ hmem
    obtain ⟨e, he, rfl⟩ := hmem
    rw [hid]
    have := h.sound.entityRange e he
    omega
  · have := h.sound.lastEntity
    simp only
    omega
  · refine forall₂_map h.entities fun e f he => ?_
    simp only [h.sound.isAt_iff hfile he, decide_eq_true_eq]
    split
    · exact { he with kind := rfl }
    · exact he

theorem Mirrors.appendEntity (h : c.Mirrors L) {key : EntityKey} {file : Int}
    (hfile : c.filePath? file = some key.file) (hroom : c.lastEntity < largestId)
    (hnew : c.entities.any (isAt key file) = false) (kind : String) {c' : Contents} (hc : c' = { c with
      entities := c.entities ++ [⟨c.lastEntity + 1, key.name, kind, file, key.line, key.column⟩]
      lastEntity := c.lastEntity + 1 }) :
    c'.Mirrors { L with entities := L.entities ++ [⟨key, kind⟩] } ∧ c.names.Extends c'.names := by
  have hext : c.names.Extends c'.names := by
    subst hc
    refine ⟨id, fun {id k} hk => ?_⟩
    obtain ⟨e, he, hk⟩ := Option.bind_eq_some_iff.1 hk
    exact Option.bind_eq_some_iff.2 ⟨e, by rw [List.find?_append, he, Option.some_or], hk⟩
  refine ⟨?_, hext⟩
  subst hc
  refine h.setEntities
    { h.sound with
      entityKeys := ?_, entityIds := ?_, entityRange := ?_, lastEntity := ?_, lastEntity_le := hroom } hext ?_
  · simp only [List.map_append, List.map_cons, List.map_nil]
    refine List.nodup_append.2 ⟨h.sound.entityKeys, by simp, ?_⟩
    simp only [List.mem_map, List.mem_singleton]
    intro _ hmem _ heq' heq
    obtain ⟨e, he, rfl⟩ := hmem
    subst heq'
    have := List.any_eq_false.1 hnew e he
    exact this (isAt_pendingKey.2 heq)
  · simp only [List.map_append, List.map_cons, List.map_nil]
    refine List.nodup_append.2 ⟨h.sound.entityIds, by simp, ?_⟩
    simp only [List.mem_map, List.mem_singleton]
    intro _ hmem _ heq'
    obtain ⟨e, he, rfl⟩ := hmem
    subst heq'
    have := h.sound.entityRange e he
    omega
  · have h0 := h.sound.lastEntity
    simp only [List.mem_append, List.mem_singleton]
    intro e he
    rcases he with he | rfl
    · have := h.sound.entityRange e he
      omega
    · exact ⟨by simp only; omega, Int.le_refl _⟩
  · have := h.sound.lastEntity
    simp only
    omega
  · exact forall₂_append_singleton h.entities ⟨hfile, rfl, rfl, rfl, rfl⟩

/-- An entity is recorded under its key, which it keeps; nothing else changes its name. -/
theorem Mirrors.mergedEntity (h : c.Mirrors L) {key : EntityKey} {file : Int}
    (hfile : c.filePath? file = some key.file) (hroom : c.lastEntity < largestId) (kind : String) :
    ∃ c', c.mergedEntity key.name kind file key.line key.column = .ok c' ∧
      c'.Mirrors (L.putEntity key kind) ∧
      c.names.Extends c'.names ∧ ∃ e ∈ c'.entities, isAt key file e = true := by
  have hany : c.entities.any (isAt key file) = L.entities.any (·.key = key) :=
    forall₂_any h.entities fun e f he => h.sound.isAt_iff hfile he
  have hat : (c.entityAt? key.name file key.line key.column).isSome = c.entities.any (isAt key file) :=
    List.isSome_find?
  unfold Contents.mergedEntity Ledger.putEntity
  rw [hat, ← hany]
  split
  next hthere =>
    obtain ⟨hm, hext⟩ := h.setKind hfile hroom kind rfl
    refine ⟨_, rfl, hm, hext, ?_⟩
    obtain ⟨e, he, hat⟩ := List.any_eq_true.1 hthere
    exact ⟨_, List.mem_map_of_mem he, by split <;> exact hat⟩
  next hnew =>
    rw [if_pos (hasFile_of_filePath? hfile)]
    obtain ⟨hm, hext⟩ := h.appendEntity hfile hroom (by simpa using hnew) kind rfl
    exact ⟨_, rfl, hm, hext, _, List.mem_append_right _ (List.mem_singleton.2 rfl), by simp [isAt]⟩

/-- The entity at the place of a key is found, and its id reads as the key. -/
theorem Sound.entityAt? (h : c.Sound) {key : EntityKey} {file : Int}
    (hfile : c.filePath? file = some key.file) (he : ∃ e ∈ c.entities, isAt key file e = true) :
    ∃ id, (c.entityAt? key.name file key.line key.column).map (·.id) = some id ∧
      c.names.key? id = some key := by
  have hsome : (c.entityAt? key.name file key.line key.column).isSome = true := by
    rw [Contents.entityAt?, List.find?_isSome]
    exact he
  obtain ⟨e, hf⟩ := Option.isSome_iff_exists.1 hsome
  refine ⟨e.id, by rw [hf]; rfl, ?_⟩
  rw [h.key?_of_mem (List.mem_of_find?_eq_some hf)]
  exact Sound.keyOf?_of_isAt hfile (List.find?_some hf)

/-! ## What artifacts say -/

theorem Mirrors.putDeclaration (h : c.Mirrors L) {r : DeclarationRow} {f : Claim}
    (hr : c.names.ClaimReads r f) :
    ∃ c', c.putDeclaration r = .ok c' ∧ c'.names = c.names ∧
      (fitsWord r.entityId = true → c'.Mirrors (L.putClaims [f])) := by
  unfold Contents.putDeclaration
  rw [hasEntity_of_key? hr.key, hasFile_of_filePath? hr.artifact]
  refine ⟨_, rfl, rfl, fun hw => { h with sound := { h.sound with declared := ?_ }, claims := ?_ }⟩
  · simp only [List.mem_append, List.mem_singleton]
    intro d hd
    rcases hd with hd | rfl
    · exact h.sound.declared d (List.mem_of_mem_filter hd)
    · exact hw
  · exact forall₂_append_singleton
      (forall₂_filter h.claims fun a b hab => by simp [h.sound.entity_eq_iff hab.key hr.key]) hr

theorem Mirrors.putDependency (h : c.Mirrors L) {r : DependencyRow} {f : DependencyFact}
    (hr : c.names.DependencyReads r f) :
    ∃ c', c.putDependency r = .ok c' ∧ c'.names = c.names ∧
      c'.Mirrors
        { L with dependencies := putLast (fun d => (d.artifact, d.path)) L.dependencies f } := by
  unfold Contents.putDependency
  rw [hasFile_of_filePath? hr.artifact, hasFile_of_filePath? hr.path]
  refine ⟨_, rfl, rfl, { h with sound := { h.sound with }, dependencies := ?_ }⟩
  refine forall₂_append_singleton (forall₂_filter h.dependencies fun a b hab => ?_) hr
  simp [h.sound.file_eq_iff hab.artifact hr.artifact, h.sound.file_eq_iff hab.path hr.path]

theorem allows_of_shows {l : StoredLink} {k : EntityKey} (h : c.names.Shows l k) :
    c.allows l = true := by
  obtain ⟨k', h, -⟩ := h
  cases h with
  | linked h => simp [allows, hasEntity_of_key? h]
  | awaiting h => simp [allows, EntityKey.pendingAt, hasFile_of_filePath? h]

theorem allows_of_showsScope {l : StoredLink} :
    ∀ {k : Option EntityKey}, c.names.ShowsScope l k → c.allows l = true
  | none, h => by
    subst h
    rfl
  | some _, h => allows_of_shows h

theorem Mirrors.addedReference (h : c.Mirrors L) (hroom : c.lastReference < largestId) {r : ReferenceRecord}
    {f : ReferenceFact} (hr : c.names.ReferenceReads r f) :
    ∃ c', c.addedReference r = .ok c' ∧ c'.names = c.names ∧ c'.Mirrors (L.addReferences [f]) := by
  unfold Contents.addedReference
  rw [allows_of_shows hr.target, allows_of_showsScope hr.scope, hasFile_of_filePath? hr.artifact,
    hasFile_of_filePath? hr.file]
  exact ⟨_, rfl, rfl,
    { h with sound := { h.sound with lastReference_le := hroom }, references := forall₂_append_singleton h.references hr }⟩

theorem Mirrors.putParameter (h : c.Mirrors L) {r : ParameterRow} {f : ParameterFact}
    (hr : c.names.ParameterReads r f) :
    ∃ c', c.putParameter r = .ok c' ∧ c'.names = c.names ∧ c'.Mirrors (L.putParameters [f]) := by
  unfold Contents.putParameter
  rw [hasEntity_of_key? hr.owner, allows_of_shows hr.parameter, hasFile_of_filePath? hr.artifact]
  refine ⟨_, rfl, rfl, { h with sound := { h.sound with }, parameters := ?_ }⟩
  refine forall₂_append_singleton (forall₂_filter h.parameters fun a b hab => ?_) hr
  simp [h.sound.entity_eq_iff hab.owner hr.owner, hab.ordinal, hr.ordinal]

end Crossref.Contents
