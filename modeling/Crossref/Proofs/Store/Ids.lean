/-
What becomes of ids. A statement either leaves files, entities and their counters
alone (`SameIds`), or it keeps every row under its id and gives new rows ids that
were never given (`KeepsIds`). Only taking out orphans takes entities away; what a
whole merge leaves `Succeeds` what was there before. None changes the version of
the index.
-/
import Crossref.Proofs.Store.Acts

namespace Crossref

namespace Contents

/-- Files, entities and the counters are as they were. -/
structure SameIds (c c' : Contents) : Prop where
  files : c'.files = c.files
  entities : c'.entities = c.entities
  lastFile : c'.lastFile = c.lastFile
  lastEntity : c'.lastEntity = c.lastEntity
  version : c'.setting? schemaKey = c.setting? schemaKey

instance : IsPreorder Contents SameIds where
  refl _ := ⟨rfl, rfl, rfl, rfl, rfl⟩
  trans _ _ _ h₁ h₂ :=
    ⟨h₂.files.trans h₁.files, h₂.entities.trans h₁.entities, h₂.lastFile.trans h₁.lastFile,
      h₂.lastEntity.trans h₁.lastEntity, h₂.version.trans h₁.version⟩

/-- The row is still there: under its id, with its path, and an artifact if it was one. -/
def StillFile (f f' : FileRow) : Prop :=
  f'.id = f.id ∧ f'.path = f.path ∧ (f.kind = "artifact" → f'.kind = "artifact")

/-- The two rows are of one entity. -/
def SameEntity (e e' : EntityRow) : Prop :=
  e'.id = e.id ∧ e'.pendingKey = e.pendingKey

/-- No file is lost; an entity is an old one under its old id, or has a key that was not there and
an id that was never given. -/
structure Succeeds (c c' : Contents) : Prop where
  files : ∀ f ∈ c.files, ∃ f' ∈ c'.files, StillFile f f'
  entities : ∀ e' ∈ c'.entities, (∃ e ∈ c.entities, SameEntity e e') ∨
    c.lastEntity < e'.id ∧ ∀ e ∈ c.entities, e.pendingKey ≠ e'.pendingKey
  lastEntity : c.lastEntity ≤ c'.lastEntity
  version : c'.setting? schemaKey = c.setting? schemaKey

/-- No entity is lost either. -/
structure KeepsIds (c c' : Contents) : Prop extends Succeeds c c' where
  persists : ∀ e ∈ c.entities, ∃ e' ∈ c'.entities, SameEntity e e'

variable {c c' c'' : Contents}

theorem StillFile.refl (f : FileRow) : StillFile f f :=
  ⟨rfl, rfl, id⟩

theorem StillFile.trans {f f' f'' : FileRow} (h₁ : StillFile f f') (h₂ : StillFile f' f'') :
    StillFile f f'' :=
  ⟨h₂.1.trans h₁.1, h₂.2.1.trans h₁.2.1, fun h => h₂.2.2 (h₁.2.2 h)⟩

theorem SameEntity.trans {e e' e'' : EntityRow} (h₁ : SameEntity e e') (h₂ : SameEntity e' e'') :
    SameEntity e e'' :=
  ⟨h₂.1.trans h₁.1, h₂.2.trans h₁.2⟩

theorem SameIds.keepsIds (h : c.SameIds c') : c.KeepsIds c' where
  files f hf := ⟨f, by rwa [h.files], .refl f⟩
  entities e' he' := .inl ⟨e', by rwa [← h.entities], rfl, rfl⟩
  lastEntity := Int.le_of_eq h.lastEntity.symm
  version := h.version
  persists e he := ⟨e, by rwa [h.entities], rfl, rfl⟩

theorem files_trans (h₁ : ∀ f ∈ c.files, ∃ f' ∈ c'.files, StillFile f f')
    (h₂ : ∀ f ∈ c'.files, ∃ f' ∈ c''.files, StillFile f f') :
    ∀ f ∈ c.files, ∃ f' ∈ c''.files, StillFile f f' := by
  intro f hf
  obtain ⟨f', hf', hstill⟩ := h₁ f hf
  obtain ⟨f'', hf'', hstill'⟩ := h₂ f' hf'
  exact ⟨f'', hf'', hstill.trans hstill'⟩

/-- While no entity is lost, a key that is new later was new before. -/
theorem KeepsIds.succeeds (h₁ : c.KeepsIds c') (h₂ : c'.Succeeds c'') : c.Succeeds c'' where
  files := files_trans h₁.files h₂.files
  entities e'' he'' := by
    rcases h₂.entities e'' he'' with ⟨e', he', hsame'⟩ | ⟨hid, hkey⟩
    · rcases h₁.entities e' he' with ⟨e, he, hsame⟩ | ⟨hid, hkey⟩
      · exact .inl ⟨e, he, hsame.trans hsame'⟩
      · exact .inr ⟨hsame'.1 ▸ hid, hsame'.2 ▸ hkey⟩
    · refine .inr ⟨Int.lt_of_le_of_lt h₁.lastEntity hid, fun e he => ?_⟩
      obtain ⟨e', he', hsame⟩ := h₁.persists e he
      exact hsame.2 ▸ hkey e' he'
  lastEntity := Int.le_trans h₁.lastEntity h₂.lastEntity
  version := h₂.version.trans h₁.version

theorem Succeeds.sameIds (h₁ : c.Succeeds c') (h₂ : c'.SameIds c'') : c.Succeeds c'' where
  files := by rw [h₂.files]; exact h₁.files
  entities := by rw [h₂.entities]; exact h₁.entities
  lastEntity := by rw [h₂.lastEntity]; exact h₁.lastEntity
  version := h₂.version.trans h₁.version

instance : IsPreorder Contents KeepsIds where
  refl c := SameIds.keepsIds (refl c)
  trans _ _ _ h₁ h₂ :=
    { h₁.succeeds h₂.toSucceeds with
      persists := fun e he =>
        let ⟨_, he', hsame⟩ := h₁.persists e he
        let ⟨e'', he'', hsame'⟩ := h₂.persists _ he'
        ⟨e'', he'', hsame.trans hsame'⟩ }

instance : Std.Refl Succeeds where
  refl c := (refl c : c.KeepsIds c).toSucceeds

/-! ## Changes of rows -/

/-- A change of files that keeps each row, perhaps with new ones behind them. -/
theorem keepsIds_of_files (g : FileRow → FileRow) (hg : ∀ f, StillFile f (g f)) (new : List FileRow)
    (hf : c'.files = c.files.map g ++ new) (he : c'.entities = c.entities)
    (hl : c'.lastEntity = c.lastEntity) (hs : c'.settings = c.settings) : c.KeepsIds c' where
  files f hmem := ⟨g f, by rw [hf]; simp [List.mem_map_of_mem hmem], hg f⟩
  entities e' he' := .inl ⟨e', by rwa [← he], rfl, rfl⟩
  lastEntity := Int.le_of_eq hl.symm
  version := by rw [setting?, hs]; rfl
  persists e hmem := ⟨e, by rwa [he], rfl, rfl⟩

theorem keepsIds_addFile (c : Contents) (new : FileRecord) : c.KeepsIds (c.addFile new) :=
  keepsIds_of_files id .refl [_] (by rw [List.map_id]; rfl) rfl rfl rfl

theorem stillFile_merge (f : FileRow) (new : FileRecord) : StillFile f (f.merge new) := by
  refine ⟨rfl, rfl, fun h => ?_⟩
  unfold FileRow.merge
  split
  · rfl
  · exact h

theorem keepsIds_mergedFile (c : Contents) (new : FileRecord) : c.KeepsIds (c.mergedFile new) := by
  unfold mergedFile
  split
  · refine keepsIds_of_files (fun f => if f.path = new.path then f.merge new else f) (fun f => ?_) []
      (List.append_nil _).symm rfl rfl rfl
    split
    · exact stillFile_merge f new
    · exact .refl f
  · exact c.keepsIds_addFile new

theorem keepsIds_ensuredFile (c : Contents) (path : String) : c.KeepsIds (c.ensuredFile path) := by
  unfold ensuredFile
  split
  · exact keepsIds_of_files id .refl [] (by simp) rfl rfl rfl
  · exact c.keepsIds_addFile { path }

theorem keepsIds_stampFile (c : Contents) (id : Int) (stamp checksum : String) :
    c.KeepsIds (c.stampFile id stamp checksum) := by
  refine keepsIds_of_files (fun f => if f.id = id then { f with stamp, checksum } else f) (fun f => ?_)
    [] (List.append_nil _).symm rfl rfl rfl
  split
  · exact ⟨rfl, rfl, fun h => h⟩
  · exact .refl f

/-- An entity at a place that is taken keeps its id; one at a free place gets the next id. -/
theorem keepsIds_putEntity {name kind : String} {fileId line column : Int}
    (h : c.putEntity name kind fileId line column = .ok c') : c.KeepsIds c' := by
  replace h := (numbered_ok h).2
  unfold mergedEntity at h
  split at h
  · obtain rfl := Except.ok.inj h
    have hsame (e : EntityRow) : SameEntity e
        (if e.name = name && e.fileId = fileId && e.line = line && e.column = column then { e with kind }
          else e) := by
      split <;> exact ⟨rfl, rfl⟩
    refine ⟨⟨fun f hf => ⟨f, hf, .refl f⟩, fun e' he' => ?_, ?_, rfl⟩, fun e he => ?_⟩
    · obtain ⟨e, he, rfl⟩ := List.mem_map.1 he'
      exact .inl ⟨e, he, hsame e⟩
    · exact Int.le_add_one (Int.le_refl _)
    · exact ⟨_, List.mem_map_of_mem he, hsame e⟩
  next hnew =>
    split at h
    · obtain rfl := Except.ok.inj h
      refine ⟨⟨fun f hf => ⟨f, hf, .refl f⟩, fun e' he' => ?_, ?_, rfl⟩, fun e he => ?_⟩
      · rcases List.mem_append.1 he' with he' | he'
        · exact .inl ⟨e', he', rfl, rfl⟩
        · obtain rfl := List.mem_singleton.1 he'
          refine .inr ⟨Int.lt_succ _, fun e he hkey => ?_⟩
          have hfree := List.find?_eq_none.1 (Option.not_isSome_iff_eq_none.1 hnew) e he
          simp only [EntityRow.pendingKey, PendingKey.mk.injEq, Option.some.injEq] at hkey
          exact hfree (by simp [hkey.1, hkey.2.1, hkey.2.2.1, hkey.2.2.2])
      · exact Int.le_add_one (Int.le_refl _)
      · exact ⟨e, List.mem_append_left _ he, rfl, rfl⟩
    · cases h

/-- A row of another table that is written under a condition. -/
theorem sameIds_guarded {d : Contents} {b : Bool} {fault : RowFault}
    (h : (if b then .ok d else .error fault) = Except.ok c') (hd : c.SameIds d) : c.SameIds c' := by
  split at h
  · exact Except.ok.inj h ▸ hd
  · cases h

theorem sameIds_recordArtifact {new : ArtifactRow} (h : c.recordArtifact new = .ok c') :
    c.SameIds c' := by
  unfold recordArtifact at h
  split at h
  · exact Except.ok.inj h ▸ ⟨rfl, rfl, rfl, rfl, rfl⟩
  · exact sameIds_guarded h ⟨rfl, rfl, rfl, rfl, rfl⟩

theorem setting?_setSetting_of_ne (c : Contents) {key key' : String} (h : key' ≠ key) (value : String) :
    (c.setSetting key value).setting? key' = c.setting? key' := by
  have hne : (key' == key) = false := by simpa using h
  unfold setSetting setting?
  split
  · have hmap (l : List (String × String)) :
        (l.map fun p => if p.1 = key then (key, value) else p).lookup key' = l.lookup key' := by
      induction l with
      | nil => rfl
      | cons p l ih =>
        obtain ⟨k, v⟩ := p
        by_cases hk : k = key
        · subst hk
          rw [List.map_cons, if_pos rfl, List.lookup_cons, List.lookup_cons, hne, ih]
        · rw [List.map_cons, if_neg hk, List.lookup_cons, List.lookup_cons, ih]
    exact hmap c.settings
  · simp [List.lookup_append, List.lookup_cons, hne]

/-- Taking out orphans takes entities away and changes none. -/
theorem succeeds_dropOrphans (h : c.dropOrphans = .ok c') : c.Succeeds c' := by
  unfold dropOrphans at h
  split at h
  · obtain rfl := Except.ok.inj h
    exact ⟨fun f hf => ⟨f, hf, .refl f⟩, fun e' he' => .inl ⟨e', (List.mem_filter.1 he').1, rfl, rfl⟩,
      Int.le_refl _, rfl⟩
  · cases h

end Contents

open StoreM Contents

namespace Store

/-! ## The statements of a store -/

theorem putFile_acts (new : FileRecord) : Acts KeepsIds (putFile new) :=
  (Acts.execute fun c _ h => mergeFile_ok h ▸ c.keepsIds_mergedFile new).bind fun _ => Acts.query _ _ _

theorem ensureFile_acts (path : String) : Acts KeepsIds (ensureFile path) :=
  (Acts.execute fun c _ h => ensureFile_ok h ▸ c.keepsIds_ensuredFile path).bind fun _ => Acts.query _ _ _

theorem stampFile_acts (path stamp checksum : String) : Acts KeepsIds (stampFile path stamp checksum) :=
  (ensureFile_acts path).bind fun id =>
    (Acts.execute_ok fun c => c.keepsIds_stampFile id stamp checksum).bind fun _ => Acts.pure id

theorem putEntity_acts (name kind : String) (fileId line column : Int) :
    Acts KeepsIds (putEntity name kind fileId line column) :=
  (Acts.execute (R := KeepsIds) fun _ _ => keepsIds_putEntity).bind fun _ => Acts.query _ _ _

theorem recordArtifact_acts (new : ArtifactRow) : Acts SameIds (recordArtifact new) :=
  Acts.execute fun _ _ => sameIds_recordArtifact

theorem touchArtifact_acts (fileId mtime : Int) : Acts SameIds (touchArtifact fileId mtime) :=
  Acts.execute_ok fun _ => ⟨rfl, rfl, rfl, rfl, rfl⟩

theorem dropDependencies_acts (artifactId : Int) :
    Acts SameIds (StoreM.execute [.dependencies] [.files] [artifactId]
      fun c => .ok (c.dropDependencies artifactId)) :=
  Acts.execute_ok fun _ => ⟨rfl, rfl, rfl, rfl, rfl⟩

theorem replaceDependencies_acts (artifactId : Int) (new : List DependencyRow) :
    Acts SameIds (replaceDependencies artifactId new) :=
  (dropDependencies_acts artifactId).bind fun _ => Acts.executeAll fun _ _ _ h =>
    sameIds_guarded h ⟨rfl, rfl, rfl, rfl, rfl⟩

theorem putDeclarations_acts (new : List DeclarationRow) : Acts SameIds (putDeclarations new) :=
  Acts.executeAll fun _ _ _ h => sameIds_guarded h ⟨rfl, rfl, rfl, rfl, rfl⟩

theorem addReferences_acts (new : List ReferenceRecord) : Acts SameIds (addReferences new) :=
  Acts.executeAll fun _ _ _ h => sameIds_guarded (numbered_ok h).2 ⟨rfl, rfl, rfl, rfl, rfl⟩

theorem putParameters_acts (new : List ParameterRow) : Acts SameIds (putParameters new) :=
  Acts.executeAll fun _ _ _ h => sameIds_guarded h ⟨rfl, rfl, rfl, rfl, rfl⟩

theorem purgeArtifact_acts (artifactId : Int) : Acts SameIds (purgeArtifact artifactId) := by
  refine Acts.bind (Acts.execute_ok fun _ => ?_) fun _ => Acts.bind (Acts.execute_ok fun _ => ?_) fun _ =>
    Acts.bind (Acts.execute_ok fun _ => ?_) fun _ => (dropDependencies_acts artifactId).bind fun _ =>
    Acts.execute_ok fun _ => ?_ <;> exact ⟨rfl, rfl, rfl, rfl, rfl⟩

theorem detachUndeclared_acts : Acts SameIds detachUndeclared := by
  refine Acts.bind (Acts.changeLinks fun _ => ?_) fun _ => Acts.bind (Acts.changeLinks fun _ => ?_)
    fun _ => Acts.bind (Acts.changeLinks fun _ => ?_) fun _ => Acts.bind (Acts.execute_ok fun _ => ?_)
    fun _ => Acts.pure _ <;> exact ⟨rfl, rfl, rfl, rfl, rfl⟩

theorem pruneOrphans_acts : Acts Succeeds pruneOrphans :=
  Acts.pruneOrphans fun _ _ => succeeds_dropOrphans

theorem relinkPending_acts : Acts SameIds relinkPending := by
  refine Acts.bind (Acts.changeLinks fun _ => ?_) fun _ => Acts.bind (Acts.changeLinks fun _ => ?_)
    fun _ => Acts.bind (Acts.changeLinks fun _ => ?_) fun _ => Acts.pure _ <;> exact ⟨rfl, rfl, rfl, rfl, rfl⟩

theorem markIndexed_acts (now : Int) : Acts SameIds (markIndexed now) :=
  Acts.execute_ok fun c => ⟨rfl, rfl, rfl, rfl, setting?_setSetting_of_ne c (by decide) _⟩

end Store

end Crossref
