/-
Contents mirror a ledger if they are sound and their rows read, one by one, as its
facts. This module shows that what a store does to its rows mirrors what the
ledger does to its facts: recording files changes no fact, and the statements on
the other tables take the facts along.
-/
import Crossref.Proofs.Store.Sound

namespace Crossref

/-! ## Rows and facts side by side -/

section
variable {α β : Type} {R : α → β → Prop} {l : List α} {l' : List β}

theorem forall₂_any {p : α → Bool} {q : β → Bool} (h : List.Forall₂ R l l')
    (hpq : ∀ a b, R a b → p a = q b) : l.any p = l'.any q := by
  induction h with
  | nil => rfl
  | cons hab _ ih => rw [List.any_cons, List.any_cons, hpq _ _ hab, ih]

theorem forall₂_find? {p : α → Bool} {q : β → Bool} (h : List.Forall₂ R l l')
    (hpq : ∀ a b, R a b → p a = q b) : Option.Rel R (l.find? p) (l'.find? q) := by
  induction h with
  | nil => exact .none
  | @cons a b _ _ hab _ ih =>
    rw [List.find?_cons, List.find?_cons, hpq a b hab]
    cases q b with
    | true => exact .some hab
    | false => exact ih

theorem forall₂_and {S : α → β → Prop} (h : List.Forall₂ R l l') (h' : List.Forall₂ S l l') :
    List.Forall₂ (fun a b => R a b ∧ S a b) l l' := by
  induction h with
  | nil => exact .nil
  | cons hab _ ih =>
    obtain ⟨hS, hrest⟩ := List.forall₂_cons.1 h'
    exact .cons ⟨hab, hS⟩ (ih hrest)

theorem forall₂_filter {p : α → Bool} {q : β → Bool} (h : List.Forall₂ R l l')
    (hpq : ∀ a b, R a b → p a = q b) : List.Forall₂ R (l.filter p) (l'.filter q) :=
  List.rel_filter (fun _ _ hab => by beta_reduce; rw [hpq _ _ hab]) h

theorem forall₂_map {f : α → α} {g : β → β} (h : List.Forall₂ R l l')
    (hfg : ∀ a b, R a b → R (f a) (g b)) : List.Forall₂ R (l.map f) (l'.map g) :=
  List.rel_map (fun _ _ hab => hfg _ _ hab) h

theorem forall₂_append_singleton {a : α} {b : β} (h : List.Forall₂ R l l') (hab : R a b) :
    List.Forall₂ R (l ++ [a]) (l' ++ [b]) :=
  List.rel_append h (.cons hab .nil)

theorem exists_right_of_forall₂ (h : List.Forall₂ R l l') {a : α} (ha : a ∈ l) : ∃ b ∈ l', R a b := by
  induction h with
  | nil => simp at ha
  | cons hab _ ih =>
    rcases List.mem_cons.1 ha with rfl | ha
    · exact ⟨_, by simp, hab⟩
    · obtain ⟨b, hb, hR⟩ := ih ha
      exact ⟨b, List.mem_cons_of_mem _ hb, hR⟩

theorem exists_left_of_forall₂ (h : List.Forall₂ R l l') {b : β} (hb : b ∈ l') : ∃ a ∈ l, R a b :=
  exists_right_of_forall₂ (R := flip R) (List.Forall₂.flip h) hb

end

namespace Contents

structure Mirrors (c : Contents) (L : Ledger) : Prop where
  sound : c.Sound
  artifacts : List.Forall₂ c.names.ArtifactReads c.artifacts L.artifacts
  dependencies : List.Forall₂ c.names.DependencyReads c.dependencies L.dependencies
  entities : List.Forall₂ c.names.EntityReads c.entities L.entities
  claims : List.Forall₂ c.names.ClaimReads c.declarations L.claims
  references : List.Forall₂ (fun r => c.names.ReferenceReads r.toReferenceRecord) c.references L.references
  parameters : List.Forall₂ c.names.ParameterReads c.parameters L.parameters

theorem empty_mirrors : Contents.empty.Mirrors {} :=
  ⟨empty_sound, .nil, .nil, .nil, .nil, .nil, .nil⟩

variable {c c' : Contents} {L : Ledger}

/-! ## Files -/

section
variable {files : List FileRow} {lastFile : Int}

theorem extends_setFiles
    (h : ∀ {id path}, c.filePath? id = some path →
      ({ c with files, lastFile } : Contents).filePath? id = some path) :
    c.names.Extends ({ c with files, lastFile } : Contents).names where
  path := h
  key := by
    intro id key hk
    simp only [names, Option.bind_eq_some_iff] at hk ⊢
    obtain ⟨e, he, hk⟩ := hk
    refine ⟨e, he, ?_⟩
    rw [keyOf?_eq_some] at hk ⊢
    exact ⟨h hk.1, hk.2⟩

/-- Rows read the same facts while file records come and change. -/
theorem Mirrors.setFiles (h : c.Mirrors L) (hs : ({ c with files, lastFile } : Contents).Sound)
    (hn : c.names.Extends ({ c with files, lastFile } : Contents).names) :
    ({ c with files, lastFile } : Contents).Mirrors L where
  sound := hs
  artifacts := h.artifacts.imp fun _ _ => .extend hn
  dependencies := h.dependencies.imp fun _ _ => .extend hn
  entities := h.entities.imp fun _ _ => .extend hn
  claims := h.claims.imp fun _ _ => .extend hn
  references := h.references.imp fun _ _ => .extend hn
  parameters := h.parameters.imp fun _ _ => .extend hn

end

/-- `c'` is `c` with a record for a file, which changes no fact and no id. -/
structure Records (c c' : Contents) (path : String) : Prop where
  mirrors : ∀ {L}, c.Mirrors L → c'.Mirrors L
  extend : c.names.Extends c'.names
  recorded : ∃ id, c'.filePath? id = some path

theorem Sound.addFile (h : c.Sound) (hroom : c.lastFile < largestId) {new : FileRecord}
    (hnew : (c.file? new.path).isSome = false) : (c.addFile new).Sound where
  has := h.has
  filePaths := by
    simp only [Contents.addFile, List.map_append, List.map_cons, List.map_nil]
    refine List.nodup_append.2 ⟨h.filePaths, by simp, ?_⟩
    simp only [file?, Option.isSome_eq_false_iff, Option.isNone_iff_eq_none, List.find?_eq_none,
      decide_eq_true_eq] at hnew
    simp only [List.mem_map, List.mem_singleton]
    intro _ hmem _ heq
    obtain ⟨f, hf, rfl⟩ := hmem
    subst heq
    exact hnew f hf
  fileIds := by
    simp only [Contents.addFile, List.map_append, List.map_cons, List.map_nil]
    refine List.nodup_append.2 ⟨h.fileIds, by simp, ?_⟩
    simp only [List.mem_map, List.mem_singleton]
    intro _ hmem _ heq
    obtain ⟨f, hf, rfl⟩ := hmem
    subst heq
    have := h.fileRange f hf
    omega
  fileRange := by
    simp only [Contents.addFile, List.mem_append, List.mem_singleton]
    have h0 := h.lastFile
    intro f hf
    rcases hf with hf | rfl
    · have := h.fileRange f hf
      omega
    · exact ⟨by simp; omega, by simp⟩
  lastFile := by
    have := h.lastFile
    simp only [Contents.addFile]
    omega
  lastFile_le := hroom
  entityKeys := h.entityKeys
  entityIds := h.entityIds
  entityRange := h.entityRange
  lastEntity := h.lastEntity
  lastEntity_le := h.lastEntity_le
  lastReference_le := h.lastReference_le
  declared := h.declared
  indexed := h.indexed

theorem addFile_extends (c : Contents) (new : FileRecord) : c.names.Extends (c.addFile new).names := by
  refine extends_setFiles fun hp => ?_
  simp only [filePath?, Option.map_eq_some_iff] at hp ⊢
  obtain ⟨f, hf, rfl⟩ := hp
  exact ⟨f, by rw [List.find?_append, hf, Option.some_or], rfl⟩

theorem Sound.addFile_records (h : c.Sound) (hroom : c.lastFile < largestId) {new : FileRecord}
    (hnew : (c.file? new.path).isSome = false) : c.Records (c.addFile new) new.path where
  mirrors hm := hm.setFiles (h.addFile hroom hnew) (addFile_extends c new)
  extend := addFile_extends c new
  recorded := by
    have hmem : ⟨c.lastFile + 1, new.path, new.kind, new.stamp, new.checksum, new.runtime⟩ ∈
        (c.addFile new).files :=
      List.mem_append_right _ (List.mem_singleton.2 rfl)
    exact ⟨_, (h.addFile hroom hnew).filePath?_of_mem hmem⟩

/-- Records of files that are there may change if they keep id and path. -/
theorem Sound.mapFiles (h : c.Sound) {g : FileRow → FileRow} {lastFile : Int}
    (hid : ∀ f, (g f).id = f.id) (hpath : ∀ f, (g f).path = f.path) (hlast : c.lastFile ≤ lastFile)
    (hroom : lastFile ≤ largestId) : ({ c with files := c.files.map g, lastFile } : Contents).Sound :=
  { h with
    filePaths := by
      simp only [List.map_map]
      exact (List.map_congr_left fun f _ => hpath f) ▸ h.filePaths
    fileIds := by
      simp only [List.map_map]
      exact (List.map_congr_left fun f _ => hid f) ▸ h.fileIds
    fileRange := by
      simp only [List.mem_map]
      intro _ hmem
      obtain ⟨f, hf, rfl⟩ := hmem
      rw [hid]
      have := h.fileRange f hf
      exact ⟨this.1, Int.le_trans this.2 hlast⟩
    lastFile := Int.le_trans h.lastFile hlast
    lastFile_le := hroom }

theorem mapFiles_extends (c : Contents) {g : FileRow → FileRow} {lastFile : Int}
    (hid : ∀ f, (g f).id = f.id) (hpath : ∀ f, (g f).path = f.path) :
    c.names.Extends ({ c with files := c.files.map g, lastFile } : Contents).names := by
  refine extends_setFiles fun {id path} hp => ?_
  have hview : FileRow.path ∘ g = FileRow.path := funext hpath
  simp only [filePath?] at hp ⊢
  rw [find?_map_of_keeps (fun f => by rw [hid]), Option.map_map, hview, hp]

theorem Sound.mapFiles_records (h : c.Sound) {g : FileRow → FileRow} {lastFile : Int}
    (hid : ∀ f, (g f).id = f.id) (hpath : ∀ f, (g f).path = f.path) (hlast : c.lastFile ≤ lastFile)
    (hroom : lastFile ≤ largestId) {path : String} (hrec : ∃ id, c.filePath? id = some path) :
    c.Records { c with files := c.files.map g, lastFile } path where
  mirrors hm := hm.setFiles (h.mapFiles hid hpath hlast hroom) (mapFiles_extends c hid hpath)
  extend := mapFiles_extends c hid hpath
  recorded :=
    let ⟨id, hid'⟩ := hrec
    ⟨id, (mapFiles_extends c hid hpath).path hid'⟩

theorem Sound.recorded_of_file? (h : c.Sound) {path : String} (hp : (c.file? path).isSome = true) :
    ∃ id, c.filePath? id = some path := by
  obtain ⟨f, hf⟩ := Option.isSome_iff_exists.1 hp
  exact ⟨f.id, (h.fileId?_eq_some).1 (by rw [fileId?, hf]; rfl)⟩

theorem Sound.ensuredFile_records (h : c.Sound) (hroom : c.lastFile < largestId) (path : String) :
    c.Records (c.ensuredFile path) path := by
  unfold Contents.ensuredFile
  split
  next hp =>
    have hr : c.Records { c with files := c.files.map id, lastFile := c.lastFile + 1 } path :=
      h.mapFiles_records (fun _ => rfl) (fun _ => rfl) (by omega) hroom (h.recorded_of_file? hp)
    simpa only [List.map_id] using hr
  next hp =>
    have hr : c.Records (c.addFile { path }) path := h.addFile_records hroom (by simpa using hp)
    exact hr

theorem Sound.mergedFile_records (h : c.Sound) (hroom : c.lastFile < largestId) (new : FileRecord) :
    c.Records (c.mergedFile new) new.path := by
  unfold Contents.mergedFile
  split
  next hp =>
    refine h.mapFiles_records (fun f => ?_) (fun f => ?_) (by omega) hroom (h.recorded_of_file? hp)
    · split <;> rfl
    · split <;> rfl
  next hp => exact h.addFile_records hroom (by simpa using hp)

theorem Sound.stampFile_records (h : c.Sound) {path : String} (id : Int) (stamp checksum : String)
    (hrec : ∃ id, c.filePath? id = some path) : c.Records (c.stampFile id stamp checksum) path := by
  refine h.mapFiles_records (fun f => ?_) (fun f => ?_) (Int.le_refl _) h.lastFile_le hrec
  · split <;> rfl
  · split <;> rfl

end Contents

end Crossref
