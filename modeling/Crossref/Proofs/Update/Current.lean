/-
The units that count after several batches. Every attempt at an artifact
supersedes what was merged of it before; if the artifact could be read, its new
unit counts from then on.
-/
import Mathlib.Data.List.Induction
import Crossref.Update.Merge

namespace Crossref

/-- Where a list with a new last element may be split. -/
theorem exists_split_snoc {α : Type} {Q : α → List α → Prop} {l : List α} {x : α} :
    (∃ before a after, l ++ [x] = before ++ a :: after ∧ Q a after) ↔
      (∃ before a after, l = before ++ a :: after ∧ Q a (after ++ [x])) ∨ Q x [] := by
  constructor
  · intro h
    obtain ⟨before, a, after, heq, hQ⟩ := h
    rcases List.eq_nil_or_concat after with rfl | ⟨after, y, rfl⟩
    · obtain rfl := List.singleton_inj.1 (List.append_inj' heq rfl).2
      exact .inr hQ
    · rw [List.concat_eq_append, ← List.cons_append, ← List.append_assoc] at heq
      obtain ⟨rfl, hxy⟩ := List.append_inj' heq rfl
      obtain rfl := List.singleton_inj.1 hxy
      exact .inl ⟨before, a, after, rfl, by rwa [List.concat_eq_append] at hQ⟩
  · intro h
    rcases h with ⟨before, a, after, rfl, hQ⟩ | hQ
    · exact ⟨before, a, after ++ [x], by simp, hQ⟩
    · exact ⟨l, x, [], rfl, hQ⟩

/-- The new last element takes the place of those before it, or leaves them as it found them. -/
theorem exists_last_snoc {α : Type} {P Q : α → Prop} {l : List α} {x : α} :
    (∃ before a after, l ++ [x] = before ++ a :: after ∧ P a ∧ ∀ b ∈ after, Q b) ↔
      ((∃ before a after, l = before ++ a :: after ∧ P a ∧ ∀ b ∈ after, Q b) ∧ Q x) ∨ P x := by
  rw [exists_split_snoc]
  refine or_congr ⟨?_, ?_⟩ (by simp)
  · intro h
    obtain ⟨before, a, after, rfl, hP, hafter⟩ := h
    exact ⟨⟨before, a, after, rfl, hP, fun b hb => hafter b (by simp [hb])⟩, hafter x (by simp)⟩
  · intro h
    obtain ⟨⟨before, a, after, rfl, hP, hafter⟩, hx⟩ := h
    refine ⟨before, a, after, rfl, hP, fun b hb => ?_⟩
    rcases List.mem_append.1 hb with hb | hb
    · exact hafter b hb
    · exact List.mem_singleton.1 hb ▸ hx

/-- `a` is the last element of the list with a property. -/
def IsLast {α : Type} (P : α → Prop) (l : List α) (a : α) : Prop :=
  P a ∧ ∃ before after, l = before ++ a :: after ∧ ∀ b ∈ after, ¬P b

section
variable {α : Type} {P : α → Prop} {l m : List α} {a : α}

theorem IsLast.mem (h : IsLast P l a) : a ∈ l := by
  obtain ⟨-, before, after, rfl, -⟩ := h
  simp

theorem not_isLast_nil : ¬IsLast P [] a :=
  fun h => absurd h.mem (by simp)

theorem isLast_snoc {x : α} : IsLast P (l ++ [x]) a ↔ (IsLast P l a ∧ ¬P x) ∨ (P x ∧ a = x) := by
  have hsplit := exists_split_snoc (l := l) (x := x)
    (Q := fun b after => (P b ∧ ∀ c ∈ after, ¬P c) ∧ b = a)
  constructor
  · intro h
    obtain ⟨hP, before, after, heq, hafter⟩ := h
    rcases hsplit.1 ⟨before, a, after, heq, ⟨hP, hafter⟩, rfl⟩ with
      ⟨before, _, after, rfl, ⟨hP, hall⟩, rfl⟩ | ⟨⟨hP, -⟩, rfl⟩
    · exact .inl ⟨⟨hP, before, after, rfl, fun b hb => hall b (by simp [hb])⟩, hall x (by simp)⟩
    · exact .inr ⟨hP, rfl⟩
  · intro h
    rcases h with ⟨⟨hP, before, after, rfl, hafter⟩, hx⟩ | ⟨hP, rfl⟩
    · refine ⟨hP, before, after ++ [x], by simp, fun b hb => ?_⟩
      rcases List.mem_append.1 hb with hb | hb
      · exact hafter b hb
      · rwa [List.mem_singleton.1 hb]
    · exact ⟨hP, l, [], rfl, by simp⟩

theorem isLast_append : IsLast P (l ++ m) a ↔ IsLast P m a ∨ (IsLast P l a ∧ ∀ b ∈ m, ¬P b) := by
  induction m using List.reverseRecOn with
  | nil => simp [not_isLast_nil]
  | append_singleton m x ih =>
    rw [← List.append_assoc, isLast_snoc, ih, isLast_snoc]
    simp only [List.mem_append, List.mem_singleton]
    constructor
    · intro hor
      rcases hor with ⟨h | ⟨h, hm⟩, hx⟩ | h
      · exact .inl (.inl ⟨h, hx⟩)
      · refine .inr ⟨h, ?_⟩
        intro b hb
        rcases hb with hb | rfl
        · exact hm b hb
        · exact hx
      · exact .inl (.inr h)
    · intro hor
      rcases hor with (⟨h, hx⟩ | h) | ⟨h, hm⟩
      · exact .inl ⟨.inl h, hx⟩
      · exact .inr h
      · exact .inl ⟨.inr ⟨h, fun b hb => hm b (.inl hb)⟩, hm x (.inr rfl)⟩

theorem IsLast.unique {b : α} (ha : IsLast P l a) (hb : IsLast P l b) : a = b := by
  induction l using List.reverseRecOn with
  | nil => exact absurd ha not_isLast_nil
  | append_singleton l x ih =>
    rcases isLast_snoc.1 ha with ⟨ha, hx⟩ | ⟨hx, rfl⟩
    · rcases isLast_snoc.1 hb with ⟨hb, -⟩ | ⟨hx', -⟩
      · exact ih ha hb
      · exact absurd hx' hx
    · rcases isLast_snoc.1 hb with ⟨-, hx'⟩ | ⟨-, rfl⟩
      · exact absurd hx hx'
      · rfl

theorem exists_isLast (h : ∃ a ∈ l, P a) : ∃ a, IsLast P l a := by
  induction l using List.reverseRecOn with
  | nil => simp at h
  | append_singleton l x ih =>
    by_cases hx : P x
    · exact ⟨x, isLast_snoc.2 (.inr ⟨hx, rfl⟩)⟩
    · obtain ⟨a, ha, hP⟩ := h
      rcases List.mem_append.1 ha with ha | ha
      · obtain ⟨b, hb⟩ := ih ⟨a, ha, hP⟩
        exact ⟨b, isLast_snoc.2 (.inl ⟨hb, hx⟩)⟩
      · exact absurd (List.mem_singleton.1 ha ▸ hP) hx

end

/-- The artifacts that a batch looks at again. -/
def ReadBatch.attempted (b : ReadBatch) : List StaleArtifact :=
  b.parsed.map (·.1) ++ b.failed.map (·.1)

def ReadBatch.units (b : ReadBatch) : List CompilationUnit :=
  b.parsed.map (·.2)

/-- The paths of the artifacts that the batch looks at again. -/
def ReadBatch.paths (b : ReadBatch) : List String :=
  b.attempted.map (·.artifact.path)

/-- The units of the batch by the paths of their artifacts. -/
def ReadBatch.merged (b : ReadBatch) : List (String × CompilationUnit) :=
  b.parsed.map fun p => (p.1.artifact.path, p.2)

theorem ReadBatch.mem_paths_of_merged (b : ReadBatch) {p : String × CompilationUnit}
    (h : p ∈ b.merged) : p.1 ∈ b.paths := by
  obtain ⟨q, hq, rfl⟩ := List.mem_map.1 h
  exact List.mem_map_of_mem (List.mem_append_left _ (List.mem_map_of_mem hq))

theorem ReadBatch.merged_nodup (b : ReadBatch) (h : b.paths.Nodup) : (b.merged.map (·.1)).Nodup := by
  rw [paths, attempted, List.map_append, List.map_map] at h
  rw [merged, List.map_map]
  exact (List.nodup_append.1 h).1

/-- The attempted artifacts lose their units, and those that could be read get new ones. -/
def supersede (units : List (String × CompilationUnit)) (b : ReadBatch) :
    List (String × CompilationUnit) :=
  units.filter (fun p => p.1 ∉ b.paths) ++ b.merged

def currentUnits (batches : List ReadBatch) : List (String × CompilationUnit) :=
  batches.foldl supersede []

theorem currentUnits_snoc (batches : List ReadBatch) (b : ReadBatch) :
    currentUnits (batches ++ [b]) = supersede (currentUnits batches) b := by
  simp [currentUnits]

/-- **A unit counts if and only if its merge is the last attempt at its artifact.** -/
theorem mem_currentUnits {batches : List ReadBatch} {path : String} {u : CompilationUnit} :
    (path, u) ∈ currentUnits batches ↔
      ∃ before b after, batches = before ++ b :: after ∧ (path, u) ∈ b.merged ∧
        ∀ b' ∈ after, path ∉ b'.paths := by
  induction batches using List.reverseRecOn with
  | nil => simp [currentUnits]
  | append_singleton batches b ih =>
    rw [currentUnits_snoc, supersede, List.mem_append, List.mem_filter, ih, decide_eq_true_iff]
    exact exists_last_snoc.symm

theorem exists_batch_of_mem_currentUnits {batches : List ReadBatch} {p : String × CompilationUnit}
    (hp : p ∈ currentUnits batches) : ∃ b ∈ batches, p ∈ b.merged := by
  obtain ⟨before, b, after, rfl, hmem, -⟩ := mem_currentUnits.1 hp
  exact ⟨b, by simp, hmem⟩

theorem ReadBatch.mem_units_of_merged {b : ReadBatch} {p : String × CompilationUnit}
    (hp : p ∈ b.merged) : p.2 ∈ b.units := by
  obtain ⟨q, hq, rfl⟩ := List.mem_map.1 hp
  exact List.mem_map_of_mem hq

theorem currentUnits_nodup {batches : List ReadBatch} (h : ∀ b ∈ batches, b.paths.Nodup) :
    ((currentUnits batches).map (·.1)).Nodup := by
  induction batches using List.reverseRecOn with
  | nil => exact List.nodup_nil
  | append_singleton batches b ih =>
    have hb : b.paths.Nodup := h b (by simp)
    rw [currentUnits_snoc, supersede, List.map_append]
    refine List.nodup_append.2 ⟨?_, b.merged_nodup hb, ?_⟩
    · exact (ih fun b' hb' => h b' (by simp [hb'])).sublist (List.filter_sublist.map _)
    · simp only [List.mem_map, List.mem_filter]
      intro _ hmem _ hmem' heq
      obtain ⟨p, ⟨-, hp⟩, rfl⟩ := hmem
      obtain ⟨q, hq, rfl⟩ := hmem'
      exact absurd (heq ▸ b.mem_paths_of_merged hq) (by simpa using hp)

end Crossref
