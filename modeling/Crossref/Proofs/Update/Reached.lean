/-
Contents that updates lead to. `Contents.Reached` holds of the contents after any
history. They are an index of this version and mirror a ledger, so a plan is made
from them without a failure of the store, and one more merge reaches contents
again.
-/
import Crossref.Proofs.Update.Acting

namespace Crossref

open StoreM Contents

/-- Some history of updates leads to the contents. -/
def Contents.Reached (c : Contents) : Prop :=
  ∃ path steps, (History.run path steps).store.contents = c

/-- The store after a step is what the step left, whether it succeeded or not. -/
theorem History.next_store (h : History) (a : UpdateStep) : (h.next a).store = (a.run h.store).2 := by
  unfold History.next
  rcases a.run h.store with ⟨e | r, s⟩ <;> rfl

/-- A step that could read leaves what its merge leaves. -/
theorem UpdateStep.run_store {a : UpdateStep} {batch : ReadBatch}
    (hread : Update.readStale a.files a.cancel a.plan.stale = .ok batch) (s : Store) :
    (a.run s).2 = (Update.merge a.plan batch a.now s).2 := by
  unfold UpdateStep.run Update.apply
  simp only [hread, bind_apply]
  rcases Update.merge a.plan batch a.now s with ⟨e | r, s'⟩ <;> rfl

/-- A step that succeeds is the merge of its batch. -/
theorem UpdateStep.merge_of_run {a : UpdateStep} {s s' : Store} {r : UpdateStats × List Progress}
    (h : a.run s = (.ok r, s')) : Update.merge a.plan a.batch a.now s = (.ok r.1, s') := by
  unfold UpdateStep.run Update.apply at h
  unfold UpdateStep.batch
  cases hread : Update.readStale a.files a.cancel a.plan.stale with
  | error e =>
    rw [hread] at h
    cases h
  | ok batch =>
    simp only [hread, bind_apply] at h ⊢
    rcases hm : Update.merge a.plan batch a.now s with ⟨e | stats, s₁⟩ <;> rw [hm] at h <;> cases h
    rfl

theorem Update.readStale_named {t : FileTree} {cancel : Nat → Bool} {stale : List StaleArtifact}
    {batch : ReadBatch} (h : readStale t cancel stale = .ok batch) : ∀ u ∈ batch.units, u.Named :=
  (readFrom_ok h).1

theorem History.Sound.next_succeeds {h : History} (hs : h.Sound) (a : UpdateStep) :
    h.store.contents.Succeeds (h.next a).store.contents := by
  obtain ⟨L, -, hm⟩ := hs.mirrors
  rw [next_store]
  cases hread : Update.readStale a.files a.cancel a.plan.stale with
  | error e =>
    unfold UpdateStep.run Update.apply
    rw [hread]
    exact Std.Refl.refl _
  | ok batch =>
    rw [UpdateStep.run_store hread]
    exact Update.merge_succeeds hs.idle hm (Update.readStale_named hread) a.plan a.now

namespace Contents

theorem reached_empty : Contents.empty.Reached :=
  ⟨"", [], rfl⟩

variable {c : Contents}

/-- The contents mirror what some batches merge to. -/
theorem Reached.merges (h : c.Reached) : ∃ L batches, Ledger.Merges batches L ∧ c.Mirrors L := by
  obtain ⟨path, steps, rfl⟩ := h
  obtain ⟨L, hL, hm⟩ := (History.run_sound path steps).mirrors
  exact ⟨L, _, hL, hm⟩

theorem Reached.mirrors (h : c.Reached) : ∃ L, c.Mirrors L := by
  obtain ⟨L, -, -, hm⟩ := h.merges
  exact ⟨L, hm⟩

theorem Reached.sound (h : c.Reached) : c.Sound := by
  obtain ⟨L, hm⟩ := h.mirrors
  exact hm.sound

theorem Reached.isIndex (h : c.Reached) : c.IsIndex := by
  refine ⟨h.sound.toComplete, ?_⟩
  obtain ⟨path, steps, rfl⟩ := h
  induction steps using List.reverseRecOn with
  | nil => rfl
  | append_singleton steps a ih =>
    rw [History.run_snoc, ((History.run_sound path steps).next_succeeds a).version, ih]

end Contents

/-! ## One more update -/

namespace Update

variable {t : FileTree} {s : Store}

/-- The plan for an index is made from its contents, or some path cannot be located. -/
theorem plan_start (h : s.contents.IsIndex) (files : List ArtifactFile) (includeRuntime : Bool) :
    plan t files includeRuntime s =
      ((files.mapM (locate t)).map (planFor t s.contents.artifactStamps includeRuntime), s.start) := by
  have hstamps : Store.artifactStamps s.start = (.ok s.contents.artifactStamps, s.start) :=
    (query_apply (s := s.start) h.toComplete _ (List.all_nil) _).trans (by rw [Store.start_start]; rfl)
  unfold plan
  rw [get_apply, bind_apply, throwing_apply, bind_apply, Store.checkSchema_start h]
  simp only [hstamps]
  cases files.mapM (locate t) <;> rfl

theorem plan_apply (hs : s.transaction = .idle) (h : s.contents.IsIndex) (files : List ArtifactFile)
    (includeRuntime : Bool) :
    plan t files includeRuntime s =
      ((files.mapM (locate t)).map (planFor t s.contents.artifactStamps includeRuntime), s) := by
  rw [plan_start h, Store.start_of_idle hs]

/-- **One more merge, on any store with contents that were reached, reaches contents again.** -/
theorem reached_merge (hs : s.Idle) (h : s.contents.Reached) {cancel : Nat → Bool} {plan : UpdatePlan}
    {batch : ReadBatch} (hread : readStale t cancel plan.stale = .ok batch) (now : Int) :
    (merge plan batch now s).2.contents.Reached := by
  obtain ⟨L, hm⟩ := h.mirrors
  obtain ⟨path, steps, hc⟩ := h
  have hnamed := readStale_named hread
  let a : UpdateStep := ⟨t, cancel, now, plan⟩
  have hidle := (History.run_sound path steps).idle
  refine ⟨path, steps ++ [a], ?_⟩
  rw [History.run_snoc, History.next_store, UpdateStep.run_store (a := a) hread]
  exact (merge_alike hidle hs hc (hc.symm ▸ hm) hnamed plan now).2

end Update

/-- The same of a whole step, whether it succeeds or not. -/
theorem UpdateStep.run_reached (a : UpdateStep) {s : Store} (hs : s.Idle) (h : s.contents.Reached) :
    (a.run s).2.Idle ∧ (a.run s).2.contents.Reached := by
  constructor
  · obtain ⟨L, hm⟩ := h.mirrors
    have hrun := a.run_runs hs hm
    unfold Runs at hrun
    unfold UpdateStep.run
    rcases happly : Update.apply a.files a.cancel a.now a.plan s with ⟨e | r, s'⟩
    · rw [happly] at hrun
      exact hrun.1
    · rw [happly] at hrun
      exact hrun.1
  · cases hread : Update.readStale a.files a.cancel a.plan.stale with
    | error e =>
      unfold UpdateStep.run Update.apply
      rw [hread]
      exact h
    | ok batch =>
      rw [UpdateStep.run_store hread]
      exact Update.reached_merge hs h hread a.now

end Crossref
