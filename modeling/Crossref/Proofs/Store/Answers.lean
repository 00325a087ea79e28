/-
The questions of an update, answered. A complete store answers every question
whose numbers fit, from its contents alone, and is left as it was but for a
transaction that starts; so what a plan and the statistics of an update say depends
on nothing but the contents.
-/
import Crossref.Proofs.Store.Acts
import Crossref.Proofs.Store.Sound

namespace Crossref

namespace StoreM

variable {s : Store}

theorem needTables_apply (h : s.contents.Complete) (tables : List Table) :
    needTables tables s = (.ok ⟨⟩, s) := by
  have hfind : tables.find? (fun t => !s.contents.has t) = none := by simp [h.has]
  unfold needTables
  rw [get_apply]
  simp only [hfind]
  rfl

theorem look_apply {α : Type} (answer : Contents → α) (s : Store) :
    (do modify Store.start; let s ← get; pure (answer s.contents) : StoreM α) s =
      (.ok (answer s.contents), s.start) := rfl

theorem query_apply {α : Type} (h : s.contents.Complete) (tables : List Table) {numbers : List Int}
    (hw : numbers.all fitsWord = true) (answer : Contents → α) :
    query tables numbers answer s = (.ok (answer s.contents), s.start) := by
  have hwords : needWords numbers = pure ⟨⟩ := if_pos hw
  rw [query, bind_apply, needTables_apply h, hwords]
  exact look_apply answer s

/-- Where no transaction is under way a question starts none. -/
theorem query_idle {α : Type} (hs : s.transaction = .idle) (h : s.contents.Complete) (tables : List Table)
    {numbers : List Int} (hw : numbers.all fitsWord = true) (answer : Contents → α) :
    query tables numbers answer s = (.ok (answer s.contents), s) := by
  rw [query_apply h tables hw, Store.start_of_idle hs]

end StoreM

namespace Contents

/-- What is counted in the contents. -/
def stats (c : Contents) : Stats where
  files := c.files.length
  artifacts := c.artifacts.length
  entities := c.entities.length
  references := c.references.countP (·.target.id.isSome)
  parameters := c.parameters.length
  pending := c.references.countP (·.target.id.isNone)
  indexed := (c.setting? indexedKey).isSome
  byKind := c.kindCounts

/-- The contents are those of an index of this version. -/
structure IsIndex (c : Contents) : Prop extends c.Complete where
  version : c.setting? schemaKey = some schemaVersion

theorem isIndex_iff {c : Contents} :
    c.IsIndex ↔ c.missingTables = [] ∧ c.setting? schemaKey = some schemaVersion := by
  constructor
  · intro h
    exact ⟨by simp [missingTables, h.has], h.version⟩
  · rintro ⟨hmissing, hversion⟩
    have hall : ∀ t ∈ Table.all, c.has t = true := by
      simpa [missingTables, List.filter_eq_nil_iff] using hmissing
    exact ⟨⟨fun t => hall t (by cases t <;> decide)⟩, hversion⟩

instance (c : Contents) : Decidable c.IsIndex :=
  decidable_of_iff _ isIndex_iff.symm

end Contents

open StoreM Contents

namespace Store

variable {s : Store}

theorem hasContent_apply (hs : s.transaction = .idle) (h : s.contents.Complete) :
    hasContent s = (.ok !s.contents.files.isEmpty, s) :=
  query_idle hs h _ rfl _

/-- The names of the tables can always be looked at. -/
theorem tables_apply {α : Type} (hs : s.transaction = .idle) (answer : Contents → α) :
    query [] [] answer s = (.ok (answer s.contents), s) := by
  change (Except.ok (answer s.contents), s.start) = _
  rw [Store.start_of_idle hs]

/-- The schema of an index is accepted, and nothing else is. -/
theorem checkSchema_start (h : s.contents.IsIndex) : checkSchema s = (.ok ⟨⟩, s.start) := by
  have hmissing := (isIndex_iff.1 h).1
  unfold checkSchema setting?
  rw [get_apply, bind_apply, query_apply h.toComplete _ (List.all_nil)]
  simp only [h.has, Bool.not_true, Bool.false_eq_true, if_false]
  rw [bind_apply, query_apply (s := s.start) h.toComplete _ (List.all_nil), start_start]
  simp only [contents_start, h.version, ne_eq, not_true_eq_false, if_false, hmissing, List.isEmpty_nil,
    Bool.not_true, Bool.false_eq_true]
  rfl

theorem isIndex_of_checkSchema (hs : s.transaction = .idle) (h : (checkSchema s).1 = .ok ⟨⟩) :
    s.contents.IsIndex := by
  unfold checkSchema at h
  rw [get_apply, bind_apply, tables_apply hs] at h
  by_cases hhas : s.contents.has .settings = true
  · have hfind : [Table.settings].find? (fun t => !s.contents.has t) = none := by simp [hhas]
    have hsetting : setting? Contents.schemaKey s = (.ok (s.contents.setting? Contents.schemaKey), s) := by
      unfold setting? query needTables
      rw [bind_apply, get_apply]
      simp only [hfind]
      exact (look_apply (·.setting? Contents.schemaKey) s).trans (by rw [Store.start_of_idle hs])
    simp only [hhas, Bool.not_true, Bool.false_eq_true, if_false] at h
    rw [bind_apply, hsetting] at h
    by_cases hversion : s.contents.setting? Contents.schemaKey = some schemaVersion
    · simp only [hversion, ne_eq, not_true_eq_false, if_false] at h
      by_cases hmissing : s.contents.missingTables = []
      · exact isIndex_iff.2 ⟨hmissing, hversion⟩
      · have hne : s.contents.missingTables.isEmpty = false := by simpa using hmissing
        simp only [hne, Bool.not_false, if_true] at h
        cases h
    · simp only [ne_eq, hversion, not_false_eq_true, if_true] at h
      cases h
  · simp only [Bool.not_eq_true] at hhas
    simp only [hhas, Bool.not_false, if_true] at h
    cases h

theorem isIndexed_apply (h : s.contents.Sound) :
    isIndexed (s.contents.setting? Contents.indexedKey) s =
      (.ok (s.contents.setting? Contents.indexedKey).isSome, s) := by
  unfold isIndexed
  cases hrecorded : s.contents.setting? Contents.indexedKey with
  | none => rfl
  | some text =>
    have hreal : Text.isReal text.toList = true := h.indexed text hrecorded
    have hne : text ≠ "" := by
      rintro rfl
      exact absurd hreal (by decide)
    simp only [hne, if_false, hreal, if_true]
    rfl

/-- The statistics of a store are what is counted in its contents. -/
theorem stats_apply (hs : s.transaction = .idle) (h : s.contents.Sound) : stats s = (.ok s.contents.stats, s) := by
  unfold stats setting?
  simp only [bind_apply, query_idle hs h.toComplete _ (List.all_nil)]
  have hindexed := isIndexed_apply h
  rw [hindexed]
  rfl

end Store

end Crossref
