/-
What a merge leaves alone. A merge looks for the rows of an artifact by its path, and
a path belongs to one file. While it takes rows out, those of every artifact that it
is not about stay as they are. While it writes, their links may change, and a
declaration may go over to an artifact that is written; but what is declared stays
declared, and keeps its parameters.
-/
import Crossref.Proofs.Update.Acting
import Crossref.Proofs.Update.Partition

namespace Crossref

/-- What the row of a reference says, but for its links. -/
def ReferenceRow.place (r : ReferenceRow) : Int × Int × Int × String :=
  (r.fileId, r.line, r.column, r.kind)

namespace Contents

/-- The path belongs to the file with this id and to no other, and the id was given. -/
structure IsFile (c : Contents) (id : Int) (path : String) : Prop where
  here : ∃ f ∈ c.files, f.path = path
  only : ∀ f ∈ c.files, f.id = id ↔ f.path = path
  range : id ≤ c.lastFile

def Declares (c : Contents) (entity : Int) : Prop :=
  ∃ d ∈ c.declarations, d.entityId = entity

def HasParameter (c : Contents) (owner ordinal : Int) : Prop :=
  ∃ p ∈ c.parameters, p.ownerId = owner ∧ p.ordinal = ordinal

/-- The artifact has the same record, the same dependencies and references at the same places. -/
structure SameRows (id : Int) (c c' : Contents) : Prop where
  artifacts : c'.artifacts.filter (·.fileId = id) = c.artifacts.filter (·.fileId = id)
  dependencies : c'.dependencies.filter (·.artifactId = id) = c.dependencies.filter (·.artifactId = id)
  references : (c'.references.filter (·.artifactId = id)).map (·.place) =
    (c.references.filter (·.artifactId = id)).map (·.place)

/-- It also has the same declarations and parameters. -/
structure Untouched (id : Int) (c c' : Contents) : Prop extends SameRows id c c' where
  declarations : c'.declarations.filter (·.artifactId = id) = c.declarations.filter (·.artifactId = id)
  parameters : c'.parameters.filter (·.artifactId = id) = c.parameters.filter (·.artifactId = id)

/-- Whatever is declared is still declared, and has a parameter wherever it had one. -/
structure Kept (id : Int) (c c' : Contents) : Prop extends SameRows id c c' where
  declares : ∀ {entity}, c.Declares entity → c'.Declares entity
  parameters : ∀ {owner ordinal}, c.Declares owner → c.HasParameter owner ordinal → c'.HasParameter owner ordinal

/-- What the artifact declares is still declared, and has a parameter wherever the artifact gave it one. -/
structure Spared (id : Int) (c c' : Contents) : Prop extends SameRows id c c' where
  declares : ∀ d ∈ c.declarations, d.artifactId = id → c'.Declares d.entityId
  parameters : ∀ d ∈ c.declarations, d.artifactId = id → ∀ p ∈ c.parameters, p.artifactId = id →
    p.ownerId = d.entityId → c'.HasParameter p.ownerId p.ordinal

variable {c c' c'' : Contents} {id : Int} {path : String} {R : Contents → Contents → Prop}

theorem SameRows.trans (h : SameRows id c c') (h' : SameRows id c' c'') : SameRows id c c'' :=
  ⟨h'.artifacts.trans h.artifacts, h'.dependencies.trans h.dependencies, h'.references.trans h.references⟩

instance : IsPreorder Contents (Untouched id) where
  refl _ := ⟨⟨rfl, rfl, rfl⟩, rfl, rfl⟩
  trans _ _ _ h h' :=
    ⟨h.toSameRows.trans h'.toSameRows, h'.declarations.trans h.declarations, h'.parameters.trans h.parameters⟩

instance : IsPreorder Contents (Kept id) where
  refl _ := ⟨⟨rfl, rfl, rfl⟩, fun h => h, fun _ h => h⟩
  trans _ _ _ h h' :=
    ⟨h.toSameRows.trans h'.toSameRows, fun hd => h'.declares (h.declares hd),
      fun hd hp => h'.parameters (h.declares hd) (h.parameters hd hp)⟩

theorem Kept.spared (h : Kept id c c') : Spared id c c' where
  toSameRows := h.toSameRows
  declares d hd _ := h.declares ⟨d, hd, rfl⟩
  parameters d hd _ p hp _ howner := h.parameters ⟨d, hd, howner.symm⟩ ⟨p, hp, rfl, rfl⟩

/-- What is left untouched first and then spared is spared. -/
theorem Untouched.spared (h : Untouched id c c') (h' : Spared id c' c'') : Spared id c c'' := by
  have hdeclaration {d : DeclarationRow} (hd : d ∈ c.declarations) (hid : d.artifactId = id) :
      d ∈ c'.declarations := by
    refine (List.mem_filter.1 (h.declarations.symm ▸ List.mem_filter.2 ⟨hd, ?_⟩)).1
    exact decide_eq_true hid
  have hparameter {p : ParameterRow} (hp : p ∈ c.parameters) (hid : p.artifactId = id) : p ∈ c'.parameters := by
    refine (List.mem_filter.1 (h.parameters.symm ▸ List.mem_filter.2 ⟨hp, ?_⟩)).1
    exact decide_eq_true hid
  refine ⟨h.toSameRows.trans h'.toSameRows, fun d hd hid => ?_, fun d hd hid p hp hpid howner => ?_⟩
  · exact h'.declares d (hdeclaration hd hid) hid
  · exact h'.parameters d (hdeclaration hd hid) hid p (hparameter hp hpid) hpid howner

/-- A change from the one to the other keeps the file, and stands in `R` for that. -/
def Spares (id : Int) (path : String) (R : Contents → Contents → Prop) (c c' : Contents) : Prop :=
  c.IsFile id path → c'.IsFile id path ∧ R c c'

instance [IsPreorder Contents R] : IsPreorder Contents (Spares id path R) where
  refl c h := ⟨h, refl c⟩
  trans _ _ _ h h' hc :=
    have ⟨hc', hleft⟩ := h hc
    have ⟨hc'', hleft'⟩ := h' hc'
    ⟨hc'', IsTrans.trans _ _ _ hleft hleft'⟩

theorem Keyed.isFile (h : c.Keyed) (hid : c.fileId? path = some id) : c.IsFile id path := by
  obtain ⟨f, hf, rfl⟩ := Option.map_eq_some_iff.1 hid
  have hmem := List.mem_of_find?_eq_some hf
  have hpath : f.path = path := by simpa using List.find?_some hf
  refine ⟨⟨f, hmem, hpath⟩, fun g hg => ⟨fun heq => ?_, fun heq => ?_⟩, h.fileRange f hmem⟩
  · rw [List.inj_on_of_nodup_map h.fileIds hg hmem heq, hpath]
  · rw [List.inj_on_of_nodup_map h.filePaths hg hmem (heq.trans hpath.symm)]

theorem exists_fileId? (h : ∃ f ∈ c.files, f.path = path) :
    ∃ f ∈ c.files, f.path = path ∧ c.fileId? path = some f.id := by
  obtain ⟨f, hf, hpath⟩ := h
  obtain ⟨g, hg⟩ := Option.isSome_iff_exists.1
    (List.find?_isSome (p := (·.path = path)).2 ⟨f, hf, decide_eq_true hpath⟩)
  refine ⟨g, List.mem_of_find?_eq_some hg, by simpa using List.find?_some hg, ?_⟩
  rw [Contents.fileId?, Contents.file?, hg, Option.map_some]

theorem IsFile.fileId? (h : c.IsFile id path) : c.fileId? path = some id := by
  obtain ⟨f, hf, hpath, hid⟩ := exists_fileId? h.here
  rw [hid, (h.only f hf).2 hpath]

/-- Another path has another id. -/
theorem IsFile.ne (h : c.IsFile id path) {path' : String} {id' : Int} (hpath : path' ≠ path)
    (hid : c.fileId? path' = some id') : id' ≠ id := by
  obtain ⟨f, hf, rfl⟩ := Option.map_eq_some_iff.1 hid
  have hfpath : f.path = path' := by simpa using List.find?_some hf
  intro heq
  exact hpath (hfpath.symm.trans ((h.only f (List.mem_of_find?_eq_some hf)).1 heq))

/-! ## Changes of files -/

theorem IsFile.map (h : c.IsFile id path) {g : FileRow → FileRow}
    (hg : ∀ f, (g f).id = f.id ∧ (g f).path = f.path) (hf : c'.files = c.files.map g)
    (hl : c.lastFile ≤ c'.lastFile) : c'.IsFile id path := by
  obtain ⟨f, hmem, hpath⟩ := h.here
  refine ⟨⟨g f, hf ▸ List.mem_map_of_mem hmem, (hg f).2.trans hpath⟩, fun f' hf' => ?_, Int.le_trans h.range hl⟩
  rw [hf] at hf'
  obtain ⟨f, hmem, rfl⟩ := List.mem_map.1 hf'
  rw [(hg f).1, (hg f).2]
  exact h.only f hmem

theorem IsFile.same (h : c.IsFile id path) (hf : c'.files = c.files) (hl : c.lastFile ≤ c'.lastFile) :
    c'.IsFile id path :=
  h.map (g := fun f => f) (fun _ => ⟨rfl, rfl⟩) (hf.trans (List.map_id' _).symm) hl

/-- A new file has another path and gets a new id. -/
theorem IsFile.addFile (h : c.IsFile id path) {new : FileRecord} (hnew : (c.file? new.path).isSome = false) :
    (c.addFile new).IsFile id path := by
  obtain ⟨f, hmem, hpath⟩ := h.here
  refine ⟨⟨f, List.mem_append_left _ hmem, hpath⟩, fun f' hf' => ?_, Int.le_add_one h.range⟩
  rcases List.mem_append.1 hf' with hf' | hf'
  · exact h.only f' hf'
  · obtain rfl := List.mem_singleton.1 hf'
    have hrange := h.range
    have hne : new.path ≠ path := by
      rintro rfl
      have hnone := List.find?_eq_none.1 (Option.isSome_eq_false_iff.1 hnew |> Option.isNone_iff_eq_none.1) f hmem
      exact absurd hpath (by simpa using hnone)
    simp only [hne, iff_false]
    omega

/-- Neither rows of artifacts nor declarations nor parameters change. -/
theorem kept_of_same (h : SameRows id c c') (hd : c'.declarations = c.declarations)
    (hp : c'.parameters = c.parameters) : Kept id c c' where
  toSameRows := h
  declares hdeclares := by rwa [Declares, hd]
  parameters _ hparameter := by rwa [HasParameter, hp]

theorem spares_mergeFile {new : FileRecord} (h : c.mergeFile new = .ok c') : Spares id path (Kept id) c c' := by
  rw [mergeFile_ok h]
  unfold mergedFile
  split
  · refine fun h =>
      ⟨h.map (fun f => ?_) rfl (Int.le_add_one (Int.le_refl _)), kept_of_same ⟨rfl, rfl, rfl⟩ rfl rfl⟩
    split <;> exact ⟨rfl, rfl⟩
  next hnew =>
    exact fun h => ⟨h.addFile (Bool.not_eq_true _ ▸ hnew), kept_of_same ⟨rfl, rfl, rfl⟩ rfl rfl⟩

theorem spares_ensureFile {path' : String} (h : c.ensureFile path' = .ok c') : Spares id path (Kept id) c c' := by
  rw [ensureFile_ok h]
  unfold ensuredFile
  split
  · exact fun h => ⟨h.same rfl (Int.le_add_one (Int.le_refl _)), kept_of_same ⟨rfl, rfl, rfl⟩ rfl rfl⟩
  next hnew =>
    exact fun h => ⟨h.addFile (Bool.not_eq_true _ ▸ hnew), kept_of_same ⟨rfl, rfl, rfl⟩ rfl rfl⟩

theorem spares_stampFile (c : Contents) (file : Int) (stamp checksum : String) :
    Spares id path (Kept id) c (c.stampFile file stamp checksum) := by
  refine fun h => ⟨h.map (fun f => ?_) rfl (Int.le_refl _), kept_of_same ⟨rfl, rfl, rfl⟩ rfl rfl⟩
  split <;> exact ⟨rfl, rfl⟩

/-! ## Changes of other tables -/

theorem spares_of_rows (hf : c'.files = c.files) (hl : c'.lastFile = c.lastFile) (h : R c c') :
    Spares id path R c c' :=
  fun hc => ⟨hc.same hf (Int.le_of_eq hl.symm), h⟩

theorem spares_guarded {d : Contents} {b : Bool} {fault : RowFault}
    (h : (if b then .ok d else .error fault) = Except.ok c') (hd : Spares id path R c d) :
    Spares id path R c c' := by
  split at h
  · exact Except.ok.inj h ▸ hd
  · cases h

/-- A change of entities or of settings. -/
theorem spares_of_same (hf : c'.files = c.files) (hl : c'.lastFile = c.lastFile) (h : SameRows id c c')
    (hd : c'.declarations = c.declarations) (hp : c'.parameters = c.parameters) : Spares id path (Kept id) c c' :=
  spares_of_rows hf hl (kept_of_same h hd hp)

theorem spares_putEntity {name kind : String} {fileId line column : Int}
    (h : c.putEntity name kind fileId line column = .ok c') : Spares id path (Kept id) c c' := by
  replace h := (numbered_ok h).2
  unfold mergedEntity at h
  split at h
  · exact Except.ok.inj h ▸ spares_of_same rfl rfl ⟨rfl, rfl, rfl⟩ rfl rfl
  · exact spares_guarded h (spares_of_same rfl rfl ⟨rfl, rfl, rfl⟩ rfl rfl)

/-- Links may change. -/
theorem spares_links {g : ReferenceRow → ReferenceRow}
    (hg : ∀ r, (g r).artifactId = r.artifactId ∧ (g r).place = r.place) :
    Spares id path (Kept id) c { c with references := c.references.map g } := by
  refine spares_of_same rfl rfl ⟨rfl, rfl, ?_⟩ rfl rfl
  simp only [List.filter_map, List.map_map, Function.comp_def, hg]

theorem filter_filter_ne {ρ : Type} (key : ρ → Int) {id id' : Int} (h : id' ≠ id) (rows : List ρ) :
    (rows.filter (key · ≠ id')).filter (key · = id) = rows.filter (key · = id) := by
  rw [List.filter_filter]
  refine List.filter_congr fun r _ => ?_
  by_cases hr : key r = id
  · simp [hr, h.symm]
  · simp [hr]

theorem filter_map_at {ρ : Type} (key : ρ → Int) {id id' : Int} (h : id' ≠ id) {g : ρ → ρ}
    (hg : ∀ r, key r = id' → key (g r) = id') (rows : List ρ) :
    (rows.map fun r => if key r = id' then g r else r).filter (key · = id) = rows.filter (key · = id) := by
  induction rows with
  | nil => rfl
  | cons r rows ih =>
    rw [List.map_cons, List.filter_cons, List.filter_cons, ih]
    by_cases hr : key r = id'
    · simp [hr, hg r hr, h]
    · simp [hr]

theorem spares_recordArtifact {new : ArtifactRow} (hnew : new.fileId ≠ id) (h : c.recordArtifact new = .ok c') :
    Spares id path (Kept id) c c' := by
  unfold recordArtifact at h
  split at h
  · refine Except.ok.inj h ▸ spares_of_same rfl rfl ⟨?_, rfl, rfl⟩ rfl rfl
    exact filter_map_at ArtifactRow.fileId hnew (fun _ _ => rfl) c.artifacts
  · refine spares_guarded h (spares_of_same rfl rfl ⟨?_, rfl, rfl⟩ rfl rfl)
    simp [List.filter_append, hnew]

theorem sameRows_dropDependencies {file : Int} (hfile : file ≠ id) (c : Contents) :
    SameRows id c (c.dropDependencies file) :=
  ⟨rfl, filter_filter_ne DependencyRow.artifactId hfile c.dependencies, rfl⟩

theorem spares_putDependency {new : DependencyRow} (hnew : new.artifactId ≠ id) (h : c.putDependency new = .ok c') :
    Spares id path (Kept id) c c' := by
  refine spares_guarded h (spares_of_same rfl rfl ⟨rfl, ?_, rfl⟩ rfl rfl)
  have hlast : [new].filter (·.artifactId = id) = [] := by simp [hnew]
  rw [List.filter_append, hlast, List.append_nil, List.filter_filter]
  refine List.filter_congr fun d _ => ?_
  by_cases hd : d.artifactId = id
  · simp [hd, hnew.symm]
  · simp [hd]

theorem spares_addReference {new : ReferenceRecord} (hnew : new.artifactId ≠ id) (h : c.addReference new = .ok c') :
    Spares id path (Kept id) c c' := by
  refine spares_guarded (numbered_ok h).2 (spares_of_same rfl rfl ⟨rfl, rfl, ?_⟩ rfl rfl)
  simp [List.filter_append, hnew]

/-- The entity of another declaration of it stays declared, by the new one. -/
theorem spares_putDeclaration {new : DeclarationRow} (h : c.putDeclaration new = .ok c') :
    Spares id path (Kept id) c c' := by
  refine spares_guarded h (spares_of_rows rfl rfl ⟨⟨rfl, rfl, rfl⟩, ?_, fun _ hparameter => hparameter⟩)
  rintro _ ⟨d, hd, rfl⟩
  by_cases heq : d.entityId = new.entityId
  · exact ⟨new, List.mem_append_right _ (List.mem_singleton_self _), heq.symm⟩
  · exact ⟨d, List.mem_append_left _ (List.mem_filter.2 ⟨hd, decide_eq_true heq⟩), rfl⟩

theorem spares_putParameter {new : ParameterRow} (h : c.putParameter new = .ok c') :
    Spares id path (Kept id) c c' := by
  refine spares_guarded h (spares_of_rows rfl rfl ⟨⟨rfl, rfl, rfl⟩, fun hdeclares => hdeclares, ?_⟩)
  rintro _ _ - ⟨p, hp, rfl, rfl⟩
  by_cases heq : p.ownerId = new.ownerId ∧ p.ordinal = new.ordinal
  · exact ⟨new, List.mem_append_right _ (List.mem_singleton_self _), heq.1.symm, heq.2.symm⟩
  · have hne := not_and_or.1 heq
    exact ⟨p, List.mem_append_left _ (List.mem_filter.2 ⟨hp, by simpa using hne⟩), rfl, rfl⟩

theorem spares_parameters {g : ParameterRow → ParameterRow}
    (hg : ∀ p, (g p).ownerId = p.ownerId ∧ (g p).ordinal = p.ordinal) :
    Spares id path (Kept id) c { c with parameters := c.parameters.map g } := by
  refine spares_of_rows rfl rfl ⟨⟨rfl, rfl, rfl⟩, fun hdeclares => hdeclares, ?_⟩
  rintro _ _ - ⟨p, hp, rfl, rfl⟩
  exact ⟨g p, List.mem_map_of_mem hp, hg p⟩

/-- An orphan is not declared, and so the parameters of what is declared stay. -/
theorem spares_dropOrphanParameters (c : Contents) : Spares id path (Kept id) c c.dropOrphanParameters := by
  refine spares_of_rows rfl rfl ⟨⟨rfl, rfl, rfl⟩, fun hdeclares => hdeclares, ?_⟩
  rintro _ _ ⟨d, hd, hentity⟩ ⟨p, hp, rfl, rfl⟩
  refine ⟨p, List.mem_filter.2 ⟨hp, ?_⟩, rfl, rfl⟩
  rw [Option.isNone_iff_eq_none, orphan?, List.find?_eq_none]
  intro e _ horphan
  simp only [Bool.and_eq_true, decide_eq_true_eq, Bool.not_eq_true', isDeclared, List.any_eq_false] at horphan
  exact horphan.2 d hd (hentity.trans (Option.some.inj horphan.1))

theorem spares_dropOrphans (h : c.dropOrphans = .ok c') : Spares id path (Kept id) c c' :=
  spares_guarded h (spares_of_same rfl rfl ⟨rfl, rfl, rfl⟩ rfl rfl)

/-! ## Rows that are taken out -/

theorem untouched_touchArtifact {file : Int} (hfile : file ≠ id) (mtime : Int) (c : Contents) :
    Untouched id c (c.touchArtifact file mtime) := by
  refine ⟨⟨?_, rfl, rfl⟩, rfl, rfl⟩
  exact filter_map_at ArtifactRow.fileId hfile (g := fun a => { a with mtime }) (fun _ h => h) c.artifacts

theorem untouched_dropParameters {file : Int} (hfile : file ≠ id) (c : Contents) :
    Untouched id c { c with parameters := c.parameters.filter (·.artifactId ≠ file) } :=
  ⟨⟨rfl, rfl, rfl⟩, rfl, filter_filter_ne ParameterRow.artifactId hfile c.parameters⟩

theorem untouched_dropReferences {file : Int} (hfile : file ≠ id) (c : Contents) :
    Untouched id c { c with references := c.references.filter (·.artifactId ≠ file) } :=
  have hrows := filter_filter_ne (·.artifactId) hfile c.references
  ⟨⟨rfl, rfl, congrArg (List.map (·.place)) hrows⟩, rfl, rfl⟩

theorem untouched_dropDeclarations {file : Int} (hfile : file ≠ id) (c : Contents) :
    Untouched id c { c with declarations := c.declarations.filter (·.artifactId ≠ file) } :=
  ⟨⟨rfl, rfl, rfl⟩, filter_filter_ne DeclarationRow.artifactId hfile c.declarations, rfl⟩

theorem untouched_dropArtifact {file : Int} (hfile : file ≠ id) (c : Contents) :
    Untouched id c { c with artifacts := c.artifacts.filter (·.fileId ≠ file) } :=
  ⟨⟨filter_filter_ne ArtifactRow.fileId hfile c.artifacts, rfl, rfl⟩, rfl, rfl⟩

end Contents

/-! ## Operations -/

/-- Where the operation succeeds it keeps the file, what it leaves stands in `R` to what was there, and `P` holds
of its answer. -/
def StoreM.Spares (id : Int) (path : String) (R : Contents → Contents → Prop) {α : Type} (x : StoreM α)
    (P : α → Prop) : Prop :=
  ∀ (s s' : Store) (a : α), s.contents.IsFile id path → x s = (.ok a, s') →
    (s'.contents.IsFile id path ∧ R s.contents s'.contents) ∧ P a

namespace StoreM.Spares

variable {α β σ ρ : Type} {id : Int} {path : String} {P : α → Prop} {Q : β → Prop}
  {R S T : Contents → Contents → Prop}

theorem of_acts {x : StoreM α} (h : Acts (Contents.Spares id path R) x) : Spares id path R x fun _ => True :=
  fun _ _ _ hs hx => ⟨h.changes_of_ok hx hs, trivial⟩

theorem mono {x : StoreM α} (h : Spares id path R x P) (hS : ∀ c c', R c c' → S c c') : Spares id path S x P :=
  fun s s' a hs hx => (h s s' a hs hx).imp_left (And.imp_right (hS _ _))

/-- One operation after the other. -/
theorem seq {x : StoreM α} {f : α → StoreM β} (hx : Spares id path R x P)
    (hf : ∀ a, P a → Spares id path S (f a) Q) (hboth : ∀ c c' c'', R c c' → S c' c'' → T c c'') :
    Spares id path T (x >>= f) Q := by
  intro s s' b hs h
  obtain ⟨a, s₁, hfirst, hlater⟩ := bind_answers h
  obtain ⟨⟨hs₁, hleft⟩, hP⟩ := hx _ _ _ hs hfirst
  obtain ⟨⟨hs₂, hleft'⟩, hQ⟩ := hf a hP _ _ _ hs₁ hlater
  exact ⟨⟨hs₂, hboth _ _ _ hleft hleft'⟩, hQ⟩

/-- What comes last changes nothing. -/
theorem before {x : StoreM α} {f : α → StoreM β} (hx : Spares id path R x P)
    (hf : ∀ a, P a → Spares id path (· = ·) (f a) Q) : Spares id path R (x >>= f) Q :=
  hx.seq hf fun _ _ _ h h' => h' ▸ h

theorem get {f : Store → StoreM α} (h : ∀ s, Spares id path R (f s) P) : Spares id path R (get >>= f) P :=
  fun s s' a hs hx => h s s s' a hs hx

theorem throwing {x : StoreM α} {g : Failure → Failure} (h : Spares id path R x P) :
    Spares id path R (tryCatch x fun e => MonadExcept.throw (g e)) P := by
  intro s s' a hs hx
  rw [throwing_apply] at hx
  rcases hr : x s with ⟨e | b, s₁⟩ <;> rw [hr] at hx <;> cases hx
  exact h _ _ _ hs hr

/-- A transaction that succeeds leaves what its body leaves. -/
theorem transaction {x : StoreM α} (h : Spares id path R x P) : Spares id path R (StoreM.transaction x) P := by
  intro s s' a hs hx
  rw [block_apply] at hx
  rcases hr : x s.enter with ⟨e | b, s₁⟩ <;> rw [hr] at hx
  · obtain ⟨_, _, -, hthrown⟩ := bind_answers hx
    cases hthrown
  · obtain ⟨_, s₂, hleave, hlast⟩ := bind_answers hx
    cases hlast
    rw [leave_contents hleave]
    exact h s.enter _ _ hs hr

theorem pure [Std.Refl R] {a : α} (h : P a) : Spares id path R (pure a) P := by
  rintro s _ _ hs ⟨⟩
  exact ⟨⟨hs, Std.Refl.refl s.contents⟩, h⟩

theorem throw {e : Failure} : Spares id path R (MonadExcept.throw e : StoreM α) P := by
  rintro _ _ _ - ⟨⟩

section
variable [IsPreorder Contents R]

theorem bind {x : StoreM α} {f : α → StoreM β} (hx : Spares id path R x P)
    (hf : ∀ a, P a → Spares id path R (f a) Q) : Spares id path R (x >>= f) Q :=
  hx.seq hf IsTrans.trans

theorem forM {f : ρ → StoreM PUnit} {rows : List ρ} (hf : ∀ r ∈ rows, Spares id path R (f r) fun _ => True) :
    Spares id path R (rows.forM f) fun _ => True := by
  induction rows with
  | nil => exact pure trivial
  | cons r rows ih =>
    rw [List.forall_mem_cons] at hf
    exact (hf.1).bind fun _ _ => ih hf.2

theorem mapM {f : ρ → StoreM α} (hf : ∀ r, Spares id path R (f r) P) (rows : List ρ) :
    Spares id path R (rows.mapM f) fun out => ∀ a ∈ out, P a := by
  induction rows with
  | nil => exact pure (by simp)
  | cons r rows ih =>
    rw [List.mapM_cons]
    exact (hf r).bind fun a ha => ih.bind fun out hout => pure (List.forall_mem_cons.2 ⟨ha, hout⟩)

theorem mapM_state {f : ρ → StateT σ StoreM α} (hf : ∀ r a, Spares id path R (f r a) fun b => P b.1)
    (rows : List ρ) (a : σ) : Spares id path R (rows.mapM f a) fun out => ∀ b ∈ out.1, P b := by
  induction rows generalizing a with
  | nil => exact pure (by simp)
  | cons r rows ih =>
    rw [List.mapM_cons]
    exact (hf r a).bind fun b hb => (ih b.2).bind fun out hout => pure (List.forall_mem_cons.2 ⟨hb, hout⟩)

/-- The same statement for each of the rows. -/
theorem executeAll {tables parents : List Table} {numbers : ρ → List Int}
    {change : ρ → Contents → Except RowFault Contents} {rows : List ρ}
    (h : ∀ r ∈ rows, ∀ c c', change r c = .ok c' → Contents.Spares id path R c c') :
    Spares id path R (StoreM.executeAll tables parents numbers change rows) fun _ => True :=
  (of_acts (Acts.needTables tables)).bind fun _ _ => (of_acts (Acts.needParents parents)).bind fun _ _ =>
    forM fun r hr => of_acts (Acts.step (h r hr))

theorem execute {tables parents : List Table} {numbers : List Int} {change : Contents → Contents}
    (h : ∀ c, Contents.Spares id path R c (change c)) :
    Spares id path R (StoreM.execute tables parents numbers fun c => .ok (change c)) fun _ => True :=
  of_acts (Acts.execute_ok h)

theorem query {tables : List Table} {numbers : List Int} {answer : Contents → α}
    (h : ∀ c, c.IsFile id path → P (answer c)) : Spares id path R (StoreM.query tables numbers answer) P := by
  intro s s' a hs hx
  rw [query_answers hx]
  refine ⟨?_, h _ hs⟩
  rw [← (Acts.query tables numbers answer).same hx]
  exact ⟨hs, refl s.contents⟩

/-- A statement that only reads. -/
theorem looks {tables : List Table} {numbers : List Int} {answer : Contents → α} :
    Spares id path R (StoreM.query tables numbers answer) fun _ => True :=
  query fun _ _ => trivial

end

end StoreM.Spares

open StoreM Contents

namespace Store

variable {id : Int} {path : String} {c c' : Contents} {R : Contents → Contents → Prop} [IsPreorder Contents R]

theorem putFile_acts_spares (new : FileRecord) : Acts (Contents.Spares id path (Kept id)) (putFile new) :=
  Acts.bind (Acts.execute fun _ _ => spares_mergeFile) fun _ => Acts.query _ _ _

theorem ensureFile_acts_spares (path' : String) : Acts (Contents.Spares id path (Kept id)) (ensureFile path') :=
  Acts.bind (Acts.execute fun _ _ => spares_ensureFile) fun _ => Acts.query _ _ _

theorem stampFile_acts_spares (path' stamp checksum : String) :
    Acts (Contents.Spares id path (Kept id)) (stampFile path' stamp checksum) :=
  (ensureFile_acts_spares path').bind fun file =>
    Acts.bind (Acts.execute_ok fun c => spares_stampFile c file stamp checksum) fun _ => Acts.pure file

theorem putEntity_acts_spares (name kind : String) (fileId line column : Int) :
    Acts (Contents.Spares id path (Kept id)) (putEntity name kind fileId line column) :=
  Acts.bind (Acts.execute fun _ _ => spares_putEntity) fun _ => Acts.query _ _ _

theorem mem_mergedFile (c : Contents) (new : FileRecord) : ∃ f ∈ (c.mergedFile new).files, f.path = new.path := by
  unfold mergedFile
  split
  next hold =>
    obtain ⟨f, hf⟩ := Option.isSome_iff_exists.1 hold
    have hpath : f.path = new.path := by simpa using List.find?_some hf
    exact ⟨f.merge new, List.mem_map.2 ⟨f, List.mem_of_find?_eq_some hf, if_pos hpath⟩, hpath⟩
  · exact ⟨_, List.mem_append_right _ (List.mem_singleton_self _), rfl⟩

/-- The id of another file is another one. -/
theorem putFile_spares {new : FileRecord} (hnew : new.path ≠ path) :
    Spares id path (Kept id) (putFile new) (· ≠ id) := by
  intro s s' a hs hr
  refine ⟨(putFile_acts_spares new).changes_of_ok hr hs, ?_⟩
  obtain ⟨_, s₁, hwritten, hquery⟩ := bind_answers hr
  have hmerge := execute_answers hwritten
  have hmem := mem_mergedFile s.contents new
  rw [← mergeFile_ok hmerge] at hmem
  obtain ⟨f, -, -, hfile⟩ := exists_fileId? hmem
  rw [query_answers hquery, hfile]
  exact (spares_mergeFile hmerge hs).1.ne hnew hfile

/-- Of another path there is no id or another one. -/
theorem fileId?_spares {path' : String} (hpath : path' ≠ path) :
    Spares id path R (fileId? path') fun found => ∀ file, found = some file → file ≠ id :=
  Spares.query fun _ hc _ hfile => hc.ne hpath hfile

theorem purgeArtifact_spares {file : Int} (hfile : file ≠ id) :
    Spares id path (Untouched id) (purgeArtifact file) fun _ => True := by
  refine (Spares.execute fun c => ?_).bind fun _ _ => ?_
  · exact spares_of_rows rfl rfl (untouched_dropParameters hfile c)
  refine (Spares.execute fun c => ?_).bind fun _ _ => ?_
  · exact spares_of_rows rfl rfl (untouched_dropReferences hfile c)
  refine (Spares.execute fun c => ?_).bind fun _ _ => ?_
  · exact spares_of_rows rfl rfl (untouched_dropDeclarations hfile c)
  refine (Spares.execute fun c => ?_).bind fun _ _ => Spares.execute fun c => ?_
  · exact spares_of_rows rfl rfl ⟨sameRows_dropDependencies hfile c, rfl, rfl⟩
  · exact spares_of_rows rfl rfl (untouched_dropArtifact hfile c)

theorem replaceDependencies_spares {file : Int} (hfile : file ≠ id) {new : List DependencyRow}
    (hnew : ∀ d ∈ new, d.artifactId = file) :
    Spares id path (Kept id) (replaceDependencies file new) fun _ => True := by
  refine (Spares.execute fun c => ?_).bind fun _ _ => ?_
  · exact spares_of_same rfl rfl (sameRows_dropDependencies hfile c) rfl rfl
  · exact Spares.executeAll fun d hd _ _ => spares_putDependency (hnew d hd ▸ hfile)

theorem addReferences_spares {file : Int} (hfile : file ≠ id) {new : List ReferenceRecord}
    (hnew : ∀ r ∈ new, r.artifactId = file) : Spares id path (Kept id) (addReferences new) fun _ => True :=
  Spares.executeAll fun r hr _ _ => spares_addReference (hnew r hr ▸ hfile)

theorem putDeclarations_acts_spares (new : List DeclarationRow) :
    Acts (Contents.Spares id path (Kept id)) (putDeclarations new) :=
  Acts.executeAll fun _ _ _ => spares_putDeclaration

theorem putParameters_acts_spares (new : List ParameterRow) :
    Acts (Contents.Spares id path (Kept id)) (putParameters new) :=
  Acts.executeAll fun _ _ _ => spares_putParameter

theorem detachUndeclared_acts_spares : Acts (Contents.Spares id path (Kept id)) detachUndeclared := by
  refine Acts.bind (Acts.changeLinks fun c => ?_) fun _ => ?_
  · exact spares_links (g := fun r => { r with target := r.target.detach c }) fun _ => ⟨rfl, rfl⟩
  refine Acts.bind (Acts.changeLinks fun c => ?_) fun _ => ?_
  · exact spares_links (g := fun r => { r with scope := r.scope.detach c }) fun _ => ⟨rfl, rfl⟩
  refine Acts.bind (Acts.changeLinks fun c => ?_) fun _ => ?_
  · exact spares_parameters (g := fun p => { p with parameter := p.parameter.detach c }) fun _ => ⟨rfl, rfl⟩
  exact Acts.bind (Acts.execute_ok spares_dropOrphanParameters) fun _ => Acts.pure _

theorem pruneOrphans_acts_spares : Acts (Contents.Spares id path (Kept id)) pruneOrphans :=
  Acts.pruneOrphans fun _ _ => spares_dropOrphans

theorem relinkPending_acts_spares : Acts (Contents.Spares id path (Kept id)) relinkPending := by
  refine Acts.bind (Acts.changeLinks fun c => ?_) fun _ => ?_
  · exact spares_links (g := fun r => { r with target := r.target.relink c }) fun _ => ⟨rfl, rfl⟩
  refine Acts.bind (Acts.changeLinks fun c => ?_) fun _ => ?_
  · exact spares_links (g := fun r => { r with scope := r.scope.relink c }) fun _ => ⟨rfl, rfl⟩
  refine Acts.bind (Acts.changeLinks fun c => ?_) fun _ => Acts.pure _
  exact spares_parameters (g := fun p => { p with parameter := p.parameter.relink c }) fun _ => ⟨rfl, rfl⟩

theorem stats_spares : Spares id path R stats fun _ => True := by
  unfold stats setting?
  refine Spares.looks.bind fun recorded _ => Spares.looks.bind fun byKind _ => Spares.looks.bind fun files _ => ?_
  refine Spares.looks.bind fun artifacts _ => Spares.looks.bind fun entities _ => ?_
  refine Spares.looks.bind fun references _ => Spares.looks.bind fun parameters _ => ?_
  refine Spares.looks.bind fun pending _ => Spares.bind (P := fun _ => True) ?_ fun indexed _ => Spares.pure trivial
  unfold isIndexed
  cases recorded with
  | none => exact Spares.pure trivial
  | some text =>
    dsimp only
    split
    · exact Spares.pure trivial
    · split
      · exact Spares.pure trivial
      · exact Spares.throw

end Store

namespace Update

variable {id : Int} {path : String}

theorem purge_spares {path' : String} (hpath : path' ≠ path) :
    Spares id path (Untouched id) (purge path') fun _ => True := by
  refine (Store.fileId?_spares hpath).bind fun found hother => ?_
  cases found with
  | none => exact Spares.pure trivial
  | some file => exact Store.purgeArtifact_spares (hother file rfl)

theorem touch_spares {path' : String} (hpath : path' ≠ path) (mtime : Int) :
    Spares id path (Untouched id) (touch path' mtime) fun _ => True := by
  refine (Store.fileId?_spares hpath).bind fun found hother => ?_
  cases found with
  | none => exact Spares.pure trivial
  | some file =>
    exact Spares.execute fun c => spares_of_rows rfl rfl (untouched_touchArtifact (hother file rfl) mtime c)

theorem writeFiles_spares {a : ArtifactFile} (ha : a.path ≠ path) (u : CompilationUnit) :
    Spares id path (Kept id) (writeFiles a u) (· ≠ id) := by
  refine (Store.putFile_spares ha).bind fun artifactId hid => ?_
  refine (Spares.forM fun source _ => ?_).bind fun _ _ => ?_
  · exact .of_acts ((Store.putFile_acts_spares (sourceRecord u a.runtime source)).before fun _ => Acts.pure _)
  refine (Spares.mapM (P := fun d => d.artifactId = artifactId) (fun d => ?_) u.dependencies).bind
    fun rows hrows => ?_
  · exact (Spares.of_acts (Store.stampFile_acts_spares d.path d.stamp d.checksum)).bind fun _ _ => Spares.pure rfl
  exact (Store.replaceDependencies_spares hid hrows).bind fun _ _ => Spares.pure hid

theorem writeReferences_spares {artifactId : Int} (hid : artifactId ≠ id) (u : LinkedUnit) (ids : FileIds) :
    Spares id path (Kept id) (writeReferences artifactId u ids) fun _ => True := by
  have hrow (r : LinkedReference) (ids : FileIds) :
      Spares id path (Kept id) (referenceRow artifactId r ids) fun out => out.1.artifactId = artifactId := by
    have hlink (l : Link) (ids : FileIds) : Acts (Contents.Spares id path (Kept id)) (storedLink l ids) :=
      Acts.composes.storedLink Store.ensureFile_acts_spares l ids
    refine (Spares.of_acts (Acts.composes.fileId Store.ensureFile_acts_spares r.location.file ids)).bind
      fun file _ => ?_
    refine (Spares.of_acts (hlink r.target file.2)).bind fun target _ => ?_
    refine (Spares.of_acts (Acts.composes.option_state hlink target.2)).bind fun scope _ => ?_
    exact Spares.pure rfl
  refine (Spares.mapM_state (P := fun row => row.artifactId = artifactId) hrow u.references ids).bind
    fun rows hrows => ?_
  exact (Store.addReferences_spares hid hrows).bind fun _ _ => Spares.pure trivial

theorem writeUnit_spares (now : Int) {st : StaleArtifact} (hst : st.artifact.path ≠ path) (u : LinkedUnit) :
    Spares id path (Kept id) (writeUnit now st u) fun _ => True := by
  refine (writeFiles_spares hst u.unit).bind fun artifactId hid => ?_
  refine (Spares.of_acts (Store.putDeclarations_acts_spares _)).bind fun _ _ => ?_
  have hparameters (ids : FileIds) : Acts (Contents.Spares id path (Kept id)) (writeParameters artifactId u ids) :=
    Acts.composes.writeParameters Store.ensureFile_acts_spares Store.putParameters_acts_spares artifactId u ids
  have hlinks : Spares id path (Kept id) (StateT.run' (do writeReferences artifactId u; writeParameters artifactId u)
      ([] : FileIds)) fun _ => True :=
    ((writeReferences_spares hid u []).bind fun out _ => .of_acts (hparameters out.2)).bind
      fun _ _ => Spares.pure trivial
  refine hlinks.bind fun _ _ => ?_
  exact .of_acts (Acts.execute fun _ _ h => spares_recordArtifact hid h)

/-- **A merge spares every artifact that it is not about.** -/
theorem mergeBatch_spares {batch : ReadBatch} {touched : List (String × Int)} {now : Int}
    (hattempted : ∀ st ∈ batch.attempted, st.artifact.path ≠ path) (htouched : ∀ p ∈ touched, p.1 ≠ path) :
    Spares id path (Spared id) (mergeBatch batch touched now) fun _ => True := by
  -- first rows are taken out, and what is written afterwards is kept
  have hboth (c c' c'' : Contents) (h : Untouched id c c') (h' : Spared id c' c'') : Spared id c c'' := h.spared h'
  refine (Spares.forM fun st hst => purge_spares (hattempted st hst)).seq (fun _ _ => ?_) hboth
  refine (Spares.forM fun p hp => touch_spares (htouched p hp) p.2).seq (fun _ _ => ?_) hboth
  refine Spares.mono (R := Kept id) ?_ fun _ _ => Kept.spared
  refine (Spares.of_acts (Acts.composes.linkBatch Store.ensureFile_acts_spares Store.putEntity_acts_spares
    (fun _ => Acts.query _ _ _) _)).bind fun linked _ => ?_
  refine (Spares.forM fun p hp => writeUnit_spares now (hattempted p.1 ?_) p.2).bind fun _ _ => ?_
  · exact List.mem_append_left _ (List.of_mem_zip hp).1
  refine (Spares.of_acts Store.detachUndeclared_acts_spares).bind fun _ _ => ?_
  refine (Spares.of_acts Store.pruneOrphans_acts_spares).bind fun _ _ => ?_
  refine (Spares.of_acts Store.relinkPending_acts_spares).bind fun _ _ => ?_
  split
  · refine (Spares.execute fun c => ?_).bind fun _ _ => Spares.pure trivial
    exact spares_of_same rfl rfl ⟨rfl, rfl, rfl⟩ rfl rfl
  · exact Spares.pure trivial

theorem merge_spares {plan : UpdatePlan} {batch : ReadBatch} {now : Int}
    (hattempted : ∀ st ∈ batch.attempted, st.artifact.path ≠ path) (htouched : ∀ p ∈ plan.touched, p.1 ≠ path) :
    Spares id path (Spared id) (merge plan batch now) fun _ => True := by
  refine Spares.get fun s => Spares.before (P := fun _ => True) ?_ fun counts _ => ?_
  · exact (mergeBatch_spares hattempted htouched).transaction.throwing
  · exact Store.stats_spares.bind fun _ _ => Spares.pure trivial

end Update

end Crossref
