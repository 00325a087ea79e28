/-
The keys of a store. No two entities have one id, and a row names only files and
entities that are there. Rows are checked when they are written; beyond that, files
and entities may come freely, and an entity may go once no row leads to it. So every
statement keeps the keys, as long as new ids come from beyond the old ones.
-/
import Crossref.Proofs.Store.Acts
import Crossref.Proofs.Store.Upkeep

namespace Crossref

namespace Contents

structure Closed (c : Contents) : Prop where
  entityIds : (c.entities.map (·.id)).Nodup
  entities : ∀ e ∈ c.entities, c.hasFile e.fileId = true
  artifacts : ∀ a ∈ c.artifacts, c.hasFile a.fileId = true
  dependencies : ∀ d ∈ c.dependencies, (c.hasFile d.artifactId && c.hasFile d.fileId) = true
  declarations : ∀ d ∈ c.declarations, (c.hasEntity d.entityId && c.hasFile d.artifactId) = true
  references : ∀ r ∈ c.references,
    (c.allows r.target && c.allows r.scope && c.hasFile r.artifactId && c.hasFile r.fileId) = true
  parameters : ∀ p ∈ c.parameters,
    (c.hasEntity p.ownerId && c.allows p.parameter && c.hasFile p.artifactId) = true

/-- No id is beyond the last one that was given. -/
structure Counted (c : Contents) : Prop where
  closed : c.Closed
  entityRange : ∀ e ∈ c.entities, e.id ≤ c.lastEntity

/-- Counted contents stay so. -/
def KeepsKeys (c c' : Contents) : Prop :=
  c.Counted → c'.Counted

instance : IsPreorder Contents KeepsKeys where
  refl _ h := h
  trans _ _ _ h₁ h₂ h := h₂ (h₁ h)

variable {c c' : Contents}

theorem hasFile_iff {id : Int} : c.hasFile id = true ↔ ∃ f ∈ c.files, f.id = id := by
  simp [hasFile]

theorem hasEntity_iff {id : Int} : c.hasEntity id = true ↔ ∃ e ∈ c.entities, e.id = id := by
  simp [hasEntity]

theorem allows_iff {l : StoredLink} : c.allows l = true ↔
    (∀ id, l.id = some id → c.hasEntity id = true) ∧ ∀ id, l.pending.fileId = some id → c.hasFile id = true := by
  simp [allows, Option.all_eq_true]

theorem allows_mono (hfile : ∀ id, c.hasFile id = true → c'.hasFile id = true)
    (hentity : ∀ id, c.hasEntity id = true → c'.hasEntity id = true) {l : StoredLink} (h : c.allows l = true) :
    c'.allows l = true := by
  obtain ⟨hid, hpending⟩ := allows_iff.1 h
  exact allows_iff.2 ⟨fun id hl => hentity id (hid id hl), fun id hl => hfile id (hpending id hl)⟩

theorem empty_counted : Contents.empty.Counted where
  closed := by constructor <;> simp [Contents.empty]
  entityRange := by simp [Contents.empty]

/-! ## More files and entities -/

/-- Rows go on naming what they named if no file and no entity is lost. -/
theorem Closed.grown (h : c.Closed) {files : List FileRow} {entities : List EntityRow} (lastFile lastEntity : Int)
    (hfile : ∀ id, c.hasFile id = true → ({ c with files } : Contents).hasFile id = true)
    (hentity : ∀ id, c.hasEntity id = true → ({ c with entities } : Contents).hasEntity id = true)
    (hids : (entities.map (·.id)).Nodup)
    (hentities : ∀ e ∈ entities, ({ c with files } : Contents).hasFile e.fileId = true) :
    ({ c with files, entities, lastFile, lastEntity } : Contents).Closed := by
  have hlink {l : StoredLink} (hl : c.allows l = true) :
      ({ c with files, entities, lastFile, lastEntity } : Contents).allows l = true := by
    refine allows_mono (fun id hid => ?_) (fun id hid => ?_) hl
    · exact hfile id hid
    · exact hentity id hid
  refine ⟨hids, hentities, fun a ha => hfile _ (h.artifacts a ha), fun d hd => ?_, fun d hd => ?_, fun r hr => ?_,
    fun p hp => ?_⟩
  · obtain ⟨hartifact, hon⟩ := Bool.and_eq_true_iff.1 (h.dependencies d hd)
    exact Bool.and_eq_true_iff.2 ⟨hfile _ hartifact, hfile _ hon⟩
  · obtain ⟨hid, hartifact⟩ := Bool.and_eq_true_iff.1 (h.declarations d hd)
    exact Bool.and_eq_true_iff.2 ⟨hentity _ hid, hfile _ hartifact⟩
  · have hrow := h.references r hr
    simp only [Bool.and_eq_true] at hrow ⊢
    exact ⟨⟨⟨hlink hrow.1.1.1, hlink hrow.1.1.2⟩, hfile _ hrow.1.2⟩, hfile _ hrow.2⟩
  · have hrow := h.parameters p hp
    simp only [Bool.and_eq_true] at hrow ⊢
    exact ⟨⟨hentity _ hrow.1.1, hlink hrow.1.2⟩, hfile _ hrow.2⟩

theorem Counted.withFiles (h : c.Counted) {files : List FileRow} {lastFile : Int}
    (hfile : ∀ id, c.hasFile id = true → ({ c with files } : Contents).hasFile id = true) :
    ({ c with files, lastFile } : Contents).Counted where
  closed := h.closed.grown lastFile c.lastEntity hfile (fun _ hid => hid) h.closed.entityIds
    fun e he => hfile _ (h.closed.entities e he)
  entityRange := h.entityRange

theorem counted_mapFiles (h : c.Counted) {g : FileRow → FileRow} (hg : ∀ f, (g f).id = f.id) (lastFile : Int) :
    ({ c with files := c.files.map g, lastFile } : Contents).Counted :=
  h.withFiles fun id hid => by
    obtain ⟨f, hf, rfl⟩ := hasFile_iff.1 hid
    exact hasFile_iff.2 ⟨g f, List.mem_map_of_mem hf, hg f⟩

theorem counted_addFile (h : c.Counted) (new : FileRecord) : (c.addFile new).Counted :=
  h.withFiles fun id hid => by
    obtain ⟨f, hf, rfl⟩ := hasFile_iff.1 hid
    exact hasFile_iff.2 ⟨f, List.mem_append_left _ hf, rfl⟩

theorem counted_mergedFile (new : FileRecord) : KeepsKeys c (c.mergedFile new) := by
  intro h
  unfold mergedFile
  split
  · refine counted_mapFiles h (fun f => ?_) _
    split <;> rfl
  · exact counted_addFile h new

theorem counted_ensuredFile (path : String) : KeepsKeys c (c.ensuredFile path) := by
  intro h
  unfold ensuredFile
  split
  · exact h.withFiles fun _ hid => hid
  · exact counted_addFile h { path }

theorem counted_stampFile (id : Int) (stamp checksum : String) : KeepsKeys c (c.stampFile id stamp checksum) :=
  fun h => counted_mapFiles h (fun f => by split <;> rfl) c.lastFile

/-- A new entity gets the next id, so it has one of its own. -/
theorem counted_putEntity {name kind : String} {fileId line column : Int}
    (hput : c.putEntity name kind fileId line column = .ok c') : KeepsKeys c c' := by
  intro h
  replace hput := (numbered_ok hput).2
  unfold mergedEntity at hput
  split at hput
  · obtain rfl := Except.ok.inj hput
    set g : EntityRow → EntityRow := fun e =>
      if e.name = name && e.fileId = fileId && e.line = line && e.column = column then { e with kind } else e
    have hg (e : EntityRow) : (g e).id = e.id ∧ (g e).fileId = e.fileId := by
      simp only [g]
      split <;> exact ⟨rfl, rfl⟩
    have hids : (c.entities.map g).map (·.id) = c.entities.map (·.id) := by
      rw [List.map_map]
      exact List.map_congr_left fun e _ => (hg e).1
    refine ⟨h.closed.grown c.lastFile _ (fun _ hid => hid) (fun id hid => ?_) (hids ▸ h.closed.entityIds) ?_, ?_⟩
    · obtain ⟨e, he, rfl⟩ := hasEntity_iff.1 hid
      exact hasEntity_iff.2 ⟨g e, List.mem_map_of_mem he, (hg e).1⟩
    · simp only [List.forall_mem_map, hg]
      exact h.closed.entities
    · simp only [List.forall_mem_map, hg]
      exact fun e he => Int.le_add_one (h.entityRange e he)
  · split at hput
    next hfile =>
      obtain rfl := Except.ok.inj hput
      refine ⟨h.closed.grown c.lastFile _ (fun _ hid => hid) (fun id hid => ?_) ?_ ?_, ?_⟩
      · obtain ⟨e, he, rfl⟩ := hasEntity_iff.1 hid
        exact hasEntity_iff.2 ⟨e, List.mem_append_left _ he, rfl⟩
      · rw [List.map_append, List.nodup_append]
        refine ⟨h.closed.entityIds, List.nodup_singleton _, ?_⟩
        simp only [List.mem_map, List.map_cons, List.map_nil, List.mem_singleton]
        rintro _ ⟨e, he, rfl⟩ _ rfl
        have := h.entityRange e he
        omega
      · simp only [List.forall_mem_append, List.forall_mem_singleton]
        exact ⟨h.closed.entities, hfile⟩
      · simp only [List.forall_mem_append, List.forall_mem_singleton]
        exact ⟨fun e he => Int.le_add_one (h.entityRange e he), Int.le_refl _⟩
    · cases hput

/-! ## Rows of other tables -/

/-- A row that may be there joins those that are left of the others. -/
theorem forall_mem_replaced {ρ : Type} {rows : List ρ} {P : ρ → Prop} (h : ∀ r ∈ rows, P r) (keep : ρ → Bool)
    {new : ρ} (hnew : P new) : ∀ r ∈ rows.filter keep ++ [new], P r := by
  simp only [List.forall_mem_append, List.forall_mem_singleton]
  exact ⟨fun r hr => h r (List.mem_of_mem_filter hr), hnew⟩

/-- A guarded change keeps the keys if it does so where its guard is true. -/
theorem keepsKeys_guarded {d : Contents} {b : Bool} {fault : RowFault}
    (h : (if b then .ok d else .error fault) = Except.ok c') (hd : b = true → KeepsKeys c d) : KeepsKeys c c' := by
  split at h
  next hb => exact Except.ok.inj h ▸ hd hb
  · cases h

theorem counted_recordArtifact {new : ArtifactRow} (hput : c.recordArtifact new = .ok c') : KeepsKeys c c' := by
  unfold recordArtifact at hput
  split at hput
  next hthere =>
    obtain rfl := Except.ok.inj hput
    obtain ⟨a, ha⟩ := Option.isSome_iff_exists.1 hthere
    have hnew : c.Closed → c.hasFile new.fileId = true := fun h => by
      have hid : a.fileId = new.fileId := by simpa using List.find?_some ha
      exact hid ▸ h.artifacts a (List.mem_of_find?_eq_some ha)
    refine fun h => ⟨{ h.closed with artifacts := ?_ }, h.entityRange⟩
    simp only [List.forall_mem_map]
    intro b hb
    split
    · exact hnew h.closed
    · exact h.closed.artifacts b hb
  · refine keepsKeys_guarded hput fun hfile h => ⟨{ h.closed with artifacts := ?_ }, h.entityRange⟩
    simp only [List.forall_mem_append, List.forall_mem_singleton]
    exact ⟨h.closed.artifacts, hfile⟩

theorem counted_touchArtifact (fileId mtime : Int) : KeepsKeys c (c.touchArtifact fileId mtime) := by
  refine fun h => ⟨{ h.closed with artifacts := ?_ }, h.entityRange⟩
  simp only [touchArtifact, List.forall_mem_map]
  intro a ha
  split <;> exact h.closed.artifacts a ha

theorem counted_dropDependencies (artifactId : Int) : KeepsKeys c (c.dropDependencies artifactId) := fun h =>
  ⟨{ h.closed with dependencies := fun d hd => h.closed.dependencies d (List.mem_of_mem_filter hd) }, h.entityRange⟩

theorem counted_putDependency {new : DependencyRow} (hput : c.putDependency new = .ok c') : KeepsKeys c c' :=
  keepsKeys_guarded hput fun hnew h =>
    ⟨{ h.closed with dependencies := forall_mem_replaced h.closed.dependencies _ hnew }, h.entityRange⟩

theorem counted_putDeclaration {new : DeclarationRow} (hput : c.putDeclaration new = .ok c') : KeepsKeys c c' :=
  keepsKeys_guarded hput fun hnew h =>
    ⟨{ h.closed with declarations := forall_mem_replaced h.closed.declarations _ hnew }, h.entityRange⟩

theorem counted_addReference {new : ReferenceRecord} (hput : c.addReference new = .ok c') : KeepsKeys c c' :=
  keepsKeys_guarded (numbered_ok hput).2 fun hnew h =>
    ⟨{ h.closed with
        references := by
          simp only [List.forall_mem_append, List.forall_mem_singleton]
          exact ⟨h.closed.references, hnew⟩ }, h.entityRange⟩

theorem counted_putParameter {new : ParameterRow} (hput : c.putParameter new = .ok c') : KeepsKeys c c' :=
  keepsKeys_guarded hput fun hnew h =>
    ⟨{ h.closed with parameters := forall_mem_replaced h.closed.parameters _ hnew }, h.entityRange⟩

/-! ## Changing links

The keys are kept if a link that may be there is changed into one that may be there. -/

section
variable {g : StoredLink → StoredLink}

theorem Closed.mapTargets (h : c.Closed) (hg : ∀ l, c.allows l = true → c.allows (g l) = true) :
    ({ c with references := c.references.map fun r => { r with target := g r.target } } : Contents).Closed :=
  { h with
    references := by
      simp only [List.forall_mem_map]
      intro r hr
      have hrow := h.references r hr
      simp only [Bool.and_eq_true] at hrow ⊢
      exact ⟨⟨⟨hg _ hrow.1.1.1, hrow.1.1.2⟩, hrow.1.2⟩, hrow.2⟩ }

theorem Closed.mapScopes (h : c.Closed) (hg : ∀ l, c.allows l = true → c.allows (g l) = true) :
    ({ c with references := c.references.map fun r => { r with scope := g r.scope } } : Contents).Closed :=
  { h with
    references := by
      simp only [List.forall_mem_map]
      intro r hr
      have hrow := h.references r hr
      simp only [Bool.and_eq_true] at hrow ⊢
      exact ⟨⟨⟨hrow.1.1.1, hg _ hrow.1.1.2⟩, hrow.1.2⟩, hrow.2⟩ }

theorem Closed.mapParameters (h : c.Closed) (hg : ∀ l, c.allows l = true → c.allows (g l) = true) :
    ({ c with parameters := c.parameters.map fun p => { p with parameter := g p.parameter } } : Contents).Closed :=
  { h with
    parameters := by
      simp only [List.forall_mem_map]
      intro p hp
      have hrow := h.parameters p hp
      simp only [Bool.and_eq_true] at hrow ⊢
      exact ⟨⟨hrow.1.1, hg _ hrow.1.2⟩, hrow.2⟩ }

end

/-- The key of an entity lies in a file that is there. -/
theorem Closed.allows_detach (h : c.Closed) (l : StoredLink) (hl : c.allows l = true) :
    c.allows (l.detach c) = true := by
  unfold StoredLink.detach
  cases ho : c.orphan? l.id with
  | none => exact hl
  | some e =>
    refine allows_iff.2 ⟨nofun, fun id hid => ?_⟩
    obtain rfl : e.fileId = id := Option.some.inj hid
    exact h.entities e (mem_of_orphan? ho).1

theorem allows_relink (l : StoredLink) (hl : c.allows l = true) : c.allows (l.relink c) = true := by
  unfold StoredLink.relink
  cases ha : l.awaited? c with
  | none => exact hl
  | some e =>
    refine allows_iff.2 ⟨fun id hid => ?_, nofun⟩
    obtain rfl : e.id = id := Option.some.inj hid
    unfold StoredLink.awaited? at ha
    split at ha
    · cases ha
    · exact hasEntity_iff.2 ⟨e, List.mem_of_find?_eq_some ha, rfl⟩

theorem Closed.dropOrphanParameters (h : c.Closed) : c.dropOrphanParameters.Closed :=
  { h with parameters := fun p hp => h.parameters p (List.mem_of_mem_filter hp) }

theorem Closed.detached (h : c.Closed) :
    c.detachTargets.detachScopes.detachParameters.dropOrphanParameters.Closed := by
  have h₁ : c.detachTargets.Closed := h.mapTargets h.allows_detach
  have h₂ : c.detachTargets.detachScopes.Closed := h₁.mapScopes h₁.allows_detach
  exact Closed.dropOrphanParameters (h₂.mapParameters h₂.allows_detach)

theorem Closed.relinked (h : c.Closed) : c.relinkTargets.relinkScopes.relinkParameters.Closed := by
  have h₁ : c.relinkTargets.Closed := h.mapTargets allows_relink
  have h₂ : c.relinkTargets.relinkScopes.Closed := h₁.mapScopes allows_relink
  exact h₂.mapParameters allows_relink

/-! ## Taking orphans out -/

/-- Orphans that no link leads to are missed by no row: a declaration has an entity that is declared. -/
theorem Closed.pruned (h : c.Closed) (hfree : c.orphansFree = true) :
    ({ c with entities := c.entities.filter c.isDeclared } : Contents).Closed := by
  have hstays {id : Int} (hid : c.hasEntity id = true) (ho : c.orphan? (some id) = none) :
      ({ c with entities := c.entities.filter c.isDeclared } : Contents).hasEntity id = true := by
    obtain ⟨e, he, rfl⟩ := hasEntity_iff.1 hid
    exact hasEntity_iff.2 ⟨e, List.mem_filter.2 ⟨he, isDeclared_of_orphan? he ho⟩, rfl⟩
  have hlink {l : StoredLink} (hl : c.allows l = true) (ho : c.orphan? l.id = none) :
      ({ c with entities := c.entities.filter c.isDeclared } : Contents).allows l = true := by
    obtain ⟨hid, hpending⟩ := allows_iff.1 hl
    exact allows_iff.2 ⟨fun id heq => hstays (hid id heq) (heq ▸ ho), hpending⟩
  simp only [orphansFree, Bool.and_eq_true, List.all_eq_true, Option.isNone_iff_eq_none] at hfree
  obtain ⟨hreferences, hparameters⟩ := hfree
  exact
    { h with
      entityIds := h.entityIds.sublist (List.filter_sublist.map _)
      entities := fun e he => h.entities e (List.mem_of_mem_filter he)
      declarations := fun d hd => by
        obtain ⟨hid, hartifact⟩ := Bool.and_eq_true_iff.1 (h.declarations d hd)
        refine Bool.and_eq_true_iff.2 ⟨hstays hid (List.find?_eq_none.2 fun e _ => ?_), hartifact⟩
        have hdeclared : d.entityId = e.id → c.isDeclared e = true := fun heq =>
          List.any_eq_true.2 ⟨d, hd, by simpa using heq⟩
        simpa using hdeclared
      references := fun r hr => by
        have hrow := h.references r hr
        simp only [Bool.and_eq_true] at hrow ⊢
        exact ⟨⟨⟨hlink hrow.1.1.1 (hreferences r hr).1, hlink hrow.1.1.2 (hreferences r hr).2⟩, hrow.1.2⟩, hrow.2⟩
      parameters := fun p hp => by
        have hrow := h.parameters p hp
        simp only [Bool.and_eq_true] at hrow ⊢
        exact ⟨⟨hstays hrow.1.1 (hparameters p hp).1, hlink hrow.1.2 (hparameters p hp).2⟩, hrow.2⟩ }

theorem counted_dropOrphans (hdrop : c.dropOrphans = .ok c') : KeepsKeys c c' :=
  keepsKeys_guarded hdrop fun hfree h =>
    ⟨h.closed.pruned hfree, fun e he => h.entityRange e (List.mem_of_mem_filter he)⟩

end Contents

open StoreM Contents

namespace Store

/-! ## The statements of a store -/

theorem putFile_keyed (new : FileRecord) : Acts KeepsKeys (putFile new) :=
  (Acts.execute (R := KeepsKeys) fun _ _ h => mergeFile_ok h ▸ counted_mergedFile new).bind fun _ => Acts.query _ _ _

theorem ensureFile_keyed (path : String) : Acts KeepsKeys (ensureFile path) :=
  (Acts.execute (R := KeepsKeys) fun _ _ h => ensureFile_ok h ▸ counted_ensuredFile path).bind fun _ => Acts.query _ _ _

theorem stampFile_keyed (path stamp checksum : String) : Acts KeepsKeys (stampFile path stamp checksum) :=
  (ensureFile_keyed path).bind fun id =>
    (Acts.execute_ok (R := KeepsKeys) fun _ => counted_stampFile id stamp checksum).bind fun _ => Acts.pure id

theorem replaceDependencies_keyed (artifactId : Int) (new : List DependencyRow) :
    Acts KeepsKeys (replaceDependencies artifactId new) :=
  (Acts.execute_ok (R := KeepsKeys) fun _ => counted_dropDependencies artifactId).bind fun _ =>
    Acts.executeAll fun _ _ _ => counted_putDependency

theorem purgeArtifact_keyed (artifactId : Int) : Acts KeepsKeys (purgeArtifact artifactId) := by
  refine Acts.bind (Acts.execute_ok (R := KeepsKeys) fun c h => ?_) fun _ =>
    Acts.bind (Acts.execute_ok (R := KeepsKeys) fun c h => ?_) fun _ =>
    Acts.bind (Acts.execute_ok (R := KeepsKeys) fun c h => ?_) fun _ =>
    Acts.bind (Acts.execute_ok (R := KeepsKeys) fun c => ?_) fun _ =>
    Acts.execute_ok (R := KeepsKeys) fun c h => ?_
  · exact ⟨{ h.closed with parameters := fun p hp => h.closed.parameters p (List.mem_of_mem_filter hp) }, h.entityRange⟩
  · exact ⟨{ h.closed with references := fun r hr => h.closed.references r (List.mem_of_mem_filter hr) }, h.entityRange⟩
  · exact ⟨{ h.closed with declarations := fun d hd => h.closed.declarations d (List.mem_of_mem_filter hd) },
      h.entityRange⟩
  · exact counted_dropDependencies artifactId
  · exact ⟨{ h.closed with artifacts := fun a ha => h.closed.artifacts a (List.mem_of_mem_filter ha) }, h.entityRange⟩

theorem putEntity_keyed (name kind : String) (fileId line column : Int) :
    Acts KeepsKeys (putEntity name kind fileId line column) :=
  (Acts.execute (R := KeepsKeys) fun _ _ => counted_putEntity).bind fun _ => Acts.query _ _ _

theorem detachUndeclared_keyed : Acts KeepsKeys detachUndeclared := by
  refine Acts.bind (Acts.changeLinks (R := KeepsKeys) fun c h => ?_) fun _ =>
    Acts.bind (Acts.changeLinks (R := KeepsKeys) fun c h => ?_) fun _ =>
    Acts.bind (Acts.changeLinks (R := KeepsKeys) fun c h => ?_) fun _ =>
    Acts.bind (Acts.execute_ok (R := KeepsKeys) fun c h => ?_) fun _ => Acts.pure _
  · exact ⟨h.closed.mapTargets h.closed.allows_detach, h.entityRange⟩
  · exact ⟨h.closed.mapScopes h.closed.allows_detach, h.entityRange⟩
  · exact ⟨h.closed.mapParameters h.closed.allows_detach, h.entityRange⟩
  · exact ⟨h.closed.dropOrphanParameters, h.entityRange⟩

theorem pruneOrphans_keyed : Acts KeepsKeys pruneOrphans :=
  Acts.pruneOrphans fun _ _ => counted_dropOrphans

theorem relinkPending_keyed : Acts KeepsKeys relinkPending := by
  refine Acts.bind (Acts.changeLinks (R := KeepsKeys) fun c h => ?_) fun _ =>
    Acts.bind (Acts.changeLinks (R := KeepsKeys) fun c h => ?_) fun _ =>
    Acts.bind (Acts.changeLinks (R := KeepsKeys) fun c h => ?_) fun _ => Acts.pure _
  · exact ⟨h.closed.mapTargets allows_relink, h.entityRange⟩
  · exact ⟨h.closed.mapScopes allows_relink, h.entityRange⟩
  · exact ⟨h.closed.mapParameters allows_relink, h.entityRange⟩

end Store

end Crossref
