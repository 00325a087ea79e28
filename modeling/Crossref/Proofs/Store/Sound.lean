/-
Sound contents: every table is there, ids come from the counters, which stay
below the largest id, and one path or one key has one id. Then reading an id and
looking up a name undo each other, and a file or an entity that is added leaves
the names behind all other ids.
-/
import Crossref.Proofs.Store.Names
import Crossref.Store.Query

namespace Crossref

/-! ## Lists with distinct slots -/

theorem find?_slot {α κ : Type} [DecidableEq κ] {slot : α → κ} {l : List α}
    (h : (l.map slot).Nodup) {a : α} (ha : a ∈ l) :
    l.find? (fun b => decide (slot b = slot a)) = some a := by
  cases hf : l.find? (fun b => decide (slot b = slot a)) with
  | none =>
    have := List.find?_eq_none.1 hf a ha
    simp at this
  | some b =>
    have hb := List.find?_some hf
    rw [List.inj_on_of_nodup_map h (List.mem_of_find?_eq_some hf) ha (by simpa using hb)]

/-- A map that keeps what a search looks at keeps where it ends. -/
theorem find?_map_of_keeps {α : Type} {l : List α} {p : α → Bool} {g : α → α}
    (hp : ∀ a, p (g a) = p a) : (l.map g).find? p = (l.find? p).map g := by
  have h : p ∘ g = p := funext hp
  rw [List.find?_map, h]

/-! ## Sound contents -/

namespace Contents

structure Sound (c : Contents) : Prop extends c.Complete where
  filePaths : (c.files.map (·.path)).Nodup
  fileIds : (c.files.map (·.id)).Nodup
  fileRange : ∀ f ∈ c.files, 1 ≤ f.id ∧ f.id ≤ c.lastFile
  lastFile : 0 ≤ c.lastFile
  lastFile_le : c.lastFile ≤ largestId
  entityKeys : (c.entities.map (·.pendingKey)).Nodup
  entityIds : (c.entities.map (·.id)).Nodup
  entityRange : ∀ e ∈ c.entities, 1 ≤ e.id ∧ e.id ≤ c.lastEntity
  lastEntity : 0 ≤ c.lastEntity
  lastEntity_le : c.lastEntity ≤ largestId
  lastReference_le : c.lastReference ≤ largestId
  declared : ∀ d ∈ c.declarations, fitsWord d.entityId = true
  indexed : ∀ text, c.setting? indexedKey = some text → Text.isReal text.toList = true

theorem empty_sound : Contents.empty.Sound where
  has t := by cases t <;> decide
  filePaths := List.nodup_nil
  fileIds := List.nodup_nil
  fileRange := by simp [Contents.empty]
  lastFile := by decide
  lastFile_le := by decide
  entityKeys := List.nodup_nil
  entityIds := List.nodup_nil
  entityRange := by simp [Contents.empty]
  lastEntity := by decide
  lastEntity_le := by decide
  lastReference_le := by decide
  declared := by simp [Contents.empty]
  indexed text h := by
    have : Contents.empty.setting? indexedKey = none := by decide
    rw [this] at h
    exact absurd h (by simp)

variable {c : Contents}

theorem mem_of_filePath? {id : Int} {path : String} (h : c.filePath? id = some path) :
    ∃ f ∈ c.files, f.id = id ∧ f.path = path := by
  simp only [filePath?, Option.map_eq_some_iff] at h
  obtain ⟨f, hf, rfl⟩ := h
  exact ⟨f, List.mem_of_find?_eq_some hf, by simpa using List.find?_some hf, rfl⟩

theorem hasFile_of_filePath? {id : Int} {path : String} (h : c.filePath? id = some path) :
    c.hasFile id = true := by
  obtain ⟨f, hf, hid, -⟩ := mem_of_filePath? h
  simp only [hasFile, List.any_eq_true, decide_eq_true_eq]
  exact ⟨f, hf, hid⟩

theorem mem_of_key? {id : Int} {k : EntityKey} (h : c.names.key? id = some k) :
    ∃ e ∈ c.entities, e.id = id ∧ c.keyOf? e = some k := by
  simp only [names, Option.bind_eq_some_iff] at h
  obtain ⟨e, he, hk⟩ := h
  exact ⟨e, List.mem_of_find?_eq_some he, by simpa using List.find?_some he, hk⟩

theorem hasEntity_of_key? {id : Int} {k : EntityKey} (h : c.names.key? id = some k) :
    c.hasEntity id = true := by
  obtain ⟨e, he, hid, -⟩ := mem_of_key? h
  simp only [hasEntity, List.any_eq_true, decide_eq_true_eq]
  exact ⟨e, he, hid⟩

theorem keyOf?_eq_some {e : EntityRow} {k : EntityKey} :
    c.keyOf? e = some k ↔ c.filePath? e.fileId = some k.file ∧ e.name = k.name ∧ e.line = k.line ∧
      e.column = k.column := by
  simp only [keyOf?, Option.map_eq_some_iff]
  constructor
  · intro hex
    obtain ⟨path, hp, rfl⟩ := hex
    exact ⟨hp, rfl, rfl, rfl⟩
  · intro hboth
    obtain ⟨hp, hn, hl, hc⟩ := hboth
    exact ⟨k.file, hp, by rw [hn, hl, hc]⟩

/-- What a counter hands out fits into a word. -/
theorem fitsWord_of_le {id : Int} (hpos : 1 ≤ id) (hle : id ≤ largestId) : fitsWord id = true := by
  simp only [fitsWord, Bool.and_eq_true, decide_eq_true_eq]
  unfold largestId at hle
  omega

namespace Sound

variable (h : c.Sound)
include h

theorem filePath?_of_mem {f : FileRow} (hf : f ∈ c.files) : c.filePath? f.id = some f.path := by
  simp [filePath?, find?_slot h.fileIds hf]

theorem fileId?_eq_some {path : String} {id : Int} :
    c.fileId? path = some id ↔ c.filePath? id = some path := by
  constructor
  · intro hid
    simp only [fileId?, file?, Option.map_eq_some_iff] at hid
    obtain ⟨f, hf, rfl⟩ := hid
    have hp : f.path = path := by simpa using List.find?_some hf
    rw [h.filePath?_of_mem (List.mem_of_find?_eq_some hf), hp]
  · intro hp
    obtain ⟨f, hf, rfl, rfl⟩ := mem_of_filePath? hp
    simp [fileId?, file?, find?_slot h.filePaths hf]

theorem path_inj {id id' : Int} {path : String} (h₁ : c.filePath? id = some path)
    (h₂ : c.filePath? id' = some path) : id = id' := by
  have h' := (h.fileId?_eq_some).2 h₁
  rw [(h.fileId?_eq_some).2 h₂] at h'
  exact (Option.some.inj h').symm

theorem key?_of_mem {e : EntityRow} (he : e ∈ c.entities) : c.names.key? e.id = c.keyOf? e := by
  simp [names, find?_slot h.entityIds he]

theorem key_inj {id id' : Int} {k : EntityKey} (h₁ : c.names.key? id = some k)
    (h₂ : c.names.key? id' = some k) : id = id' := by
  obtain ⟨e, he, rfl, hk⟩ := mem_of_key? h₁
  obtain ⟨e', he', rfl, hk'⟩ := mem_of_key? h₂
  obtain ⟨hp, hn, hl, hc⟩ := keyOf?_eq_some.1 hk
  obtain ⟨hp', hn', hl', hc'⟩ := keyOf?_eq_some.1 hk'
  have : e.pendingKey = e'.pendingKey := by
    simp only [EntityRow.pendingKey, h.path_inj hp hp', hn, hn', hl, hl', hc, hc']
  rw [List.inj_on_of_nodup_map h.entityKeys he he' this]

theorem fits_file {id : Int} {path : String} (hid : c.filePath? id = some path) : fitsWord id = true := by
  obtain ⟨f, hf, rfl, -⟩ := mem_of_filePath? hid
  have hrange := h.fileRange f hf
  have hlast := h.lastFile_le
  exact fitsWord_of_le hrange.1 (Int.le_trans hrange.2 hlast)

theorem fits_entity {id : Int} {k : EntityKey} (hid : c.names.key? id = some k) : fitsWord id = true := by
  obtain ⟨e, he, rfl, -⟩ := mem_of_key? hid
  have hrange := h.entityRange e he
  have hlast := h.lastEntity_le
  exact fitsWord_of_le hrange.1 (Int.le_trans hrange.2 hlast)

end Sound

end Contents

end Crossref
