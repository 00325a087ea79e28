/-
The references of an entity. However often a reference was linked, detached and
linked again, its row says what its artifact wrote: the query for an entity
answers the uses of its key in the units that count, each as often as it is
written, sorted by location. Uses of keys without an entity wait under their keys.
-/
import Mathlib.Data.String.Basic
import Crossref.Proofs.Store.Links
import Crossref.Proofs.Update.History

namespace Crossref

/-! ## The order of locations -/

namespace Location

theorem le_iff {l m : Location} :
    l.le m = true ↔ l.file < m.file ∨ l.file = m.file ∧
      (l.line < m.line ∨ l.line = m.line ∧ l.column ≤ m.column) := by
  have hposition : ¬m.position.before l.position = true ↔
      l.line < m.line ∨ l.line = m.line ∧ l.column ≤ m.column := by
    rw [Position.before_iff]
    simp only [position]
    omega
  simp only [Location.le, Bool.or_eq_true, Bool.and_eq_true, decide_eq_true_eq,
    Bool.not_eq_true', ← hposition, Bool.not_eq_true]

theorem le_trans {l m n : Location} (h₁ : l.le m = true) (h₂ : m.le n = true) : l.le n = true := by
  rw [le_iff] at h₁ h₂ ⊢
  rcases h₁ with h₁ | ⟨hf₁, h₁⟩ <;> rcases h₂ with h₂ | ⟨hf₂, h₂⟩
  · exact .inl (lt_trans h₁ h₂)
  · exact .inl (hf₂ ▸ h₁)
  · exact .inl (hf₁ ▸ h₂)
  · exact .inr ⟨hf₁.trans hf₂, by omega⟩

theorem le_total (l m : Location) : (l.le m || m.le l) = true := by
  rw [Bool.or_eq_true, le_iff, le_iff]
  rcases lt_trichotomy l.file m.file with h | h | h
  · exact .inl (.inl h)
  · have hposition : (l.line < m.line ∨ l.line = m.line ∧ l.column ≤ m.column) ∨
        (m.line < l.line ∨ m.line = l.line ∧ m.column ≤ l.column) := by omega
    exact hposition.imp (fun hp => .inr ⟨h, hp⟩) fun hp => .inr ⟨h.symm, hp⟩
  · exact .inr (.inl h)

end Location

/-- `answer` is `l` sorted by location; where locations agree, the order is that of `l`. -/
structure SortedByLocation (l answer : List ReferenceInfo) : Prop where
  perm : answer.Perm l
  sorted : answer.Pairwise fun r s => r.location.le s.location = true
  stable : ∀ place, answer.filter (·.location = place) = l.filter (·.location = place)

theorem sortedByLocation_mergeSort (l : List ReferenceInfo) :
    SortedByLocation l (l.mergeSort fun r s => r.location.le s.location) := by
  have htrans (r s t : ReferenceInfo) (h₁ : r.location.le s.location = true)
      (h₂ : s.location.le t.location = true) : r.location.le t.location = true :=
    Location.le_trans h₁ h₂
  have htotal (r s : ReferenceInfo) : (r.location.le s.location || s.location.le r.location) = true :=
    r.location.le_total s.location
  have hperm := List.mergeSort_perm l fun r s => r.location.le s.location
  refine ⟨hperm, List.pairwise_mergeSort htrans htotal l, fun place => ?_⟩
  -- the elements at one place are in order already, so that sorting keeps their order
  have hordered : (l.filter (·.location = place)).Pairwise fun r s =>
      r.location.le s.location = true := by
    refine List.pairwise_of_forall_mem_list fun r hr s hs => ?_
    rw [of_decide_eq_true (List.mem_filter.1 hr).2, of_decide_eq_true (List.mem_filter.1 hs).2]
    exact (Bool.or_self _).symm.trans (place.le_total place)
  have hsub := (List.sublist_mergeSort htrans htotal hordered List.filter_sublist).filter
    (·.location = place)
  have hself : (l.filter (·.location = place)).filter (·.location = place) =
      l.filter (·.location = place) := by
    rw [List.filter_filter, List.filter_congr fun _ _ => Bool.and_self _]
  rw [hself] at hsub
  exact (hsub.eq_of_length (hperm.filter _).length_eq.symm).symm

/-! ## The answer of the query -/

open StoreM

theorem Store.references_runs {s : Store} (hs : s.Idle) (hc : s.contents.Complete) {id : Int}
    (hid : fitsWord id = true) :
    Runs s (Store.references id)
      (fun answer c => answer = s.contents.referenceInfos id ∧ c = s.contents) fun _ _ => False := by
  refine Runs.of_ends hs ((Ends.query hc fun hw => ?_).weaken fun _ _ h => ⟨h.1, h.2.1⟩)
  simp [hid] at hw

namespace History

/-- The uses of a key in the units that count, with the paths of their artifacts. -/
def uses (h : History) (k : EntityKey) : List (String × Reference) :=
  h.current.flatMap fun p => (p.2.references.filter (·.target = k)).map fun r => (p.1, r)

theorem filter_referenceFacts (units : List (String × CompilationUnit)) (k : EntityKey) :
    (units.flatMap fun p => p.2.referenceFacts p.1).filter (·.target = k) =
      (units.flatMap fun p => (p.2.references.filter (·.target = k)).map fun r => (p.1, r)).map
        fun q => q.2.fact q.1 := by
  rw [List.filter_flatMap, List.map_flatMap]
  refine List.flatMap_congr fun p _ => ?_
  rw [CompilationUnit.referenceFacts, List.filter_map, List.map_map]
  rfl

theorem Sound.fitsWord {h : History} (hs : h.Sound) {e : EntityRow}
    (he : e ∈ h.store.contents.entities) : Crossref.fitsWord e.id = true := by
  obtain ⟨L, -, hm⟩ := hs.mirrors
  obtain ⟨d, hd, hid⟩ := List.any_eq_true.1 (hs.settled.declared e he)
  exact of_decide_eq_true hid ▸ hm.sound.declared d hd

/-- **References are neither lost nor doubled.** For an entity the query answers exactly the
uses of its key in the units that count, sorted; the scope is the entity with the key of the
scope, if there is one. The uses of a key without an entity are exactly the rows that wait for
the key. The artifacts with a record are those with a unit that counts, and each has one if no
plan names it twice. -/
theorem references_current (path : String) (steps : List UpdateStep) :
    let h := run path steps
    let c := h.store.contents
    (∀ e ∈ c.entities, ∀ k, c.keyOf? e = some k →
      ∃ answer, (Store.references e.id h.store).1 = .ok answer ∧
        SortedByLocation
          ((h.uses k).map fun q => ⟨e.id, q.2.location, q.2.kind.text, q.2.scope.bind c.entityId?⟩)
            answer) ∧
      (∀ k, ¬c.Knows k →
        (c.references.filter
          (·.target = ⟨none, ⟨some k.name, c.fileId? k.file, some k.line, some k.column⟩⟩)).map
            (some ·.toReferenceRecord) =
          (h.uses k).map fun q => c.referenceRow? (q.2.fact q.1)) ∧
      (∀ p, c.Indexed p ↔ ∃ u, (p, u) ∈ h.current) ∧
      ((∀ a ∈ steps, a.plan.Distinct) → (h.current.map (·.1)).Nodup) := by
  intro h c
  have hs : h.Sound := run_sound path steps
  obtain ⟨L, hL, hm⟩ := hs.mirrors
  have hnamed : ∀ f ∈ L.references, f.Named :=
    named_referenceFacts (fun _ => hs.current_named) hL.references
  have huses (k : EntityKey) :
      L.references.filter (·.target = k) = (h.uses k).map fun q => q.2.fact q.1 := by
    rw [hL.references]
    exact filter_referenceFacts h.current k
  refine ⟨fun e he k hk => ?_, fun k hk => ?_, fun p => hs.indexed_iff,
    fun hd => currentUnits_nodup (paths_nodup hd)⟩
  · have hkey : c.names.key? e.id = some k := (hm.sound.key?_of_mem he).trans hk
    obtain ⟨answer, hanswer, -, rfl, -⟩ :=
      (Store.references_runs hs.idle hm.sound.toComplete (hs.fitsWord he)).answers
    refine ⟨_, hanswer, ?_⟩
    have hinfos := hm.referenceInfos_rows hs.settled hnamed hkey
    rw [huses, List.map_map] at hinfos
    exact hinfos ▸ sortedByLocation_mergeSort _
  · have hrows := hm.references_linkTo hs.settled hnamed k
    rw [Contents.linkTo, hm.sound.entityId?_eq_none.2 hk, huses, List.map_map] at hrows
    exact hrows

end History

end Crossref
