/-
Updating and rebuilding. As long as no two units that count own the same key, a
history of updates leads to the index that one merge of all these units into an
empty store leads to, whatever was read again, failed or was cancelled in between.
Only ids, the order of rows and the times of artifacts may differ.
-/
import Mathlib.Data.List.Infix
import Crossref.Proofs.Store.Listing
import Crossref.Proofs.Update.Demand
import Crossref.Proofs.Update.History

namespace Crossref

/-- Settled contents whose ledger is what some units say list this ledger. -/
theorem Ledger.Tells.listing {L : Ledger} {units : List (String × CompilationUnit)}
    (h : L.Tells units) {c : Contents} (hm : c.Mirrors L) (hs : c.Settled)
    (hnamed : ∀ p ∈ units, p.2.Named)
    (hparameters : ∀ p ∈ units, ∀ q ∈ p.2.parameters, q.key.name ≠ "") :
    c.listing? = some L.listing := by
  refine hm.listing?_eq hs (named_referenceFacts hnamed h.references) fun f hf => ?_
  rw [h.parameters, List.mem_flatMap] at hf
  obtain ⟨p, hp, hf⟩ := hf
  obtain ⟨q, hq, rfl⟩ := List.mem_map.1 ((mem_putAll _ hf).resolve_left (by simp))
  exact hparameters p hp q (List.mem_of_mem_filter hq)

theorem currentUnits_singleton (b : ReadBatch) : currentUnits [b] = b.merged := by
  simp [currentUnits, supersede]

namespace History

/-- Every batch ends a history of its own. -/
theorem exists_prefix_of_batches {path : String} {steps : List UpdateStep} {done : List ReadBatch}
    (h : done <+: (run path steps).batches) :
    ∃ before, before <+: steps ∧ (run path before).batches = done := by
  induction steps using List.reverseRecOn with
  | nil => exact ⟨[], List.prefix_refl _, (List.prefix_nil.1 h).symm⟩
  | append_singleton steps a ih =>
    have hbefore (h : done <+: (run path steps).batches) :
        ∃ before, before <+: steps ++ [a] ∧ (run path before).batches = done := by
      obtain ⟨before, hprefix, hdone⟩ := ih h
      exact ⟨before, hprefix.trans (List.prefix_append _ _), hdone⟩
    rcases hr : a.run (run path steps).store with ⟨e | r, s⟩
    · rw [run_snoc, next, hr] at h
      exact hbefore h
    · have hrun : (run path (steps ++ [a])).batches = (run path steps).batches ++ [a.batch] := by
        rw [run_snoc, next, hr]
      rw [hrun] at h
      rcases List.prefix_concat_iff.1 h with rfl | h
      · exact ⟨steps ++ [a], List.prefix_refl _, hrun⟩
      · exact hbefore h

end History

/-! ## Rebuilding -/

/-- The batch holds these units, in some order, and nothing in it failed. -/
structure ReadBatch.Rebuilds (b : ReadBatch) (units : List (String × CompilationUnit)) : Prop where
  failed : b.failed = []
  merged : b.merged.Perm units

namespace ReadBatch.Rebuilds

variable {b : ReadBatch} {units : List (String × CompilationUnit)}

theorem mem_units (h : b.Rebuilds units) {u : CompilationUnit} (hu : u ∈ b.units) :
    ∃ p ∈ units, p.2 = u := by
  obtain ⟨q, hq, rfl⟩ := List.mem_map.1 hu
  exact ⟨_, h.merged.mem_iff.1 (List.mem_map_of_mem hq), rfl⟩

theorem paths_nodup (h : b.Rebuilds units) (hunits : (units.map (·.1)).Nodup) : b.paths.Nodup := by
  have hmerged := (h.merged.map Prod.fst).nodup_iff.2 hunits
  rw [ReadBatch.merged, List.map_map] at hmerged
  rwa [paths, attempted, h.failed, List.map_nil, List.append_nil, List.map_map]

/-- The ledger of the batch alone is what its units say. -/
theorem tells (h : b.Rebuilds units) (hunits : (units.map (·.1)).Nodup)
    (hnamed : ∀ p ∈ units, p.2.Named) (hdisjoint : DisjointOwners units) {L : Ledger}
    (hL : Ledger.Merges [b] L) : L.Tells b.merged := by
  have htells := hL.tells (fun b' hb' u hu => ?_) (fun b' hb' => ?_) fun done hdone => ?_
  · rwa [currentUnits_singleton] at htells
  · obtain rfl := List.mem_singleton.1 hb'
    obtain ⟨p, hp, rfl⟩ := h.mem_units hu
    exact hnamed p hp
  · obtain rfl := List.mem_singleton.1 hb'
    exact h.paths_nodup hunits
  · rcases List.prefix_cons_iff.1 hdone with rfl | ⟨rest, rfl, hrest⟩
    · exact List.Pairwise.nil
    · rw [List.prefix_nil.1 hrest, currentUnits_singleton]
      exact hdisjoint.perm h.merged

end ReadBatch.Rebuilds

namespace History

/-- An empty store has too few ids only for a batch that demands more than there are. -/
theorem demand_of_lacks {path : String} {n : Nat} (h : (start path).store.contents.Lacks n) :
    0x8000000000000000 ≤ n := by
  change Contents.largestId < 0 + (n : Int) ∨ Contents.largestId < 0 + (n : Int) ∨
    Contents.largestId < 0 + (n : Int) at h
  unfold Contents.largestId at h
  omega

/-- **Updating equals rebuilding.** Suppose that plans name no artifact twice, that after each
step no two units that count own the same key, and that every parameter of a unit that counts at
the end has a name. Then merging the units that count at the end as one batch, in any order,
into an empty store leads to the same index, unless they demand more ids than there are. -/
theorem same_as_rebuild (path : String) (steps : List UpdateStep)
    (hplans : ∀ a ∈ steps, a.plan.Distinct)
    (hdisjoint : ∀ done, done <+: steps → DisjointOwners (run path done).current)
    (hparameters : ∀ p ∈ (run path steps).current, ∀ q ∈ p.2.parameters, q.key.name ≠ "")
    (batch : ReadBatch) (hbatch : batch.Rebuilds (run path steps).current) (plan : UpdatePlan)
    (now : Int) :
    let rebuilt := Update.merge plan batch now (start path).store
    (∃ stats l l', rebuilt.1 = .ok stats ∧ (run path steps).store.contents.listing? = some l ∧
        rebuilt.2.contents.listing? = some l' ∧ l.Same l') ∨
      rebuilt.1 = .error (Update.noRoom path) ∧ 0x8000000000000000 ≤ batch.demand := by
  intro rebuilt
  have hs : (run path steps).Sound := run_sound path steps
  have hpaths : ((run path steps).current.map (·.1)).Nodup := currentUnits_nodup (paths_nodup hplans)
  have hcurrent : ∀ p ∈ (run path steps).current, p.2.Named := fun p => hs.current_named
  obtain ⟨L, hL, hm⟩ := hs.mirrors
  have htells : L.Tells (run path steps).current := by
    refine hL.tells hs.named (paths_nodup hplans) fun done hdone => ?_
    obtain ⟨before, hbefore, rfl⟩ := exists_prefix_of_batches hdone
    exact hdisjoint before hbefore
  have hnamed : ∀ u ∈ batch.units, u.Named := fun u hu => by
    obtain ⟨p, hp, rfl⟩ := hbatch.mem_units hu
    exact hcurrent p hp
  have hstart : (start path).store.contents.Mirrors {} := Contents.empty_mirrors
  have hrun := Update.merge_runs (start_sound path).idle hstart hnamed plan now
  unfold StoreM.Runs at hrun
  rcases hr : Update.merge plan batch now (start path).store with ⟨e | stats, s'⟩
  · simp only [hr] at hrun
    obtain ⟨-, -, hrefused⟩ := hrun
    cases hrefused with
    | number unfit =>
      refine absurd (fun u hu => ?_) unfit
      obtain ⟨p, hp, rfl⟩ := hbatch.mem_units hu
      exact hs.current_fits hp
    | room lacks => exact .inr ⟨congrArg Prod.fst hr, demand_of_lacks lacks⟩
  · simp only [hr] at hrun
    obtain ⟨-, hm', hsettled, -⟩ := hrun
    have hmerges : Ledger.Merges [batch] (Ledger.merge {} batch plan.touched) := Ledger.Merges.nil.snoc
    have htells' := hbatch.tells hpaths hcurrent (hdisjoint steps (List.prefix_refl _)) hmerges
    refine .inl ⟨stats, L.listing, _, congrArg Prod.fst hr,
      htells.listing hm hs.settled hcurrent hparameters, ?_,
      (htells.same htells' hL.keyed hmerges.keyed hbatch.merged.symm).listing⟩
    have hlisting := htells'.listing hm' hsettled (fun p hp => hcurrent p (hbatch.merged.mem_iff.1 hp))
      fun p hp => hparameters p (hbatch.merged.mem_iff.1 hp)
    change (Update.merge plan batch now (start path).store).2.contents.listing? = _
    rw [hr]
    exact hlisting

end History

/-! ## A use that comes before its entity -/

namespace Rebuilding

/-- Declares `F`, and uses the `G` of another unit. -/
def caller : String :=
  "V \"1\"\nU v%b v.adb 00000000\nD v.adb 20240101000000 00000000\nD w.adb 20240101000000 00000000\n" ++
    "X 1 v.adb\n1V1*F 2r2\nX 2 w.adb\n1V1*G 1|3r2\n"

def callee : String :=
  "V \"1\"\nU w%b w.adb 00000000\nD w.adb 20240101000000 00000000\nX 1 w.adb\n1V1*G 2r2\n"

def files : FileTree where
  cwd := ["t"]
  nodes := [(["t"], .directory), (["t", "v.ali"], .bytes caller.toUTF8.toList 1),
    (["t", "w.ali"], .bytes callee.toUTF8.toList 2)]

def step (stale : StaleArtifact) : UpdateStep where
  files
  cancel _ := false
  now := stale.mtime
  plan := { stale := [stale] }

/-- The use of `G` is merged first, and waits. -/
def steps : List UpdateStep :=
  [step ⟨{ path := "/t/v.ali" }, 1, true⟩, step ⟨{ path := "/t/w.ali" }, 2, true⟩]

/-- Both units at once, in the other order. -/
def batch : ReadBatch where
  parsed := (History.run "s" steps).current.reverse.map fun p => (⟨{ path := p.1 }, 0, true⟩, p.2)

/-- The two steps and the one merge lead to the same index. -/
theorem same_calls :
    ∃ stats l l', (Update.merge {} batch 0 (History.start "s").store).1 = .ok stats ∧
      (History.run "s" steps).store.contents.listing? = some l ∧
      (Update.merge {} batch 0 (History.start "s").store).2.contents.listing? = some l' ∧ l.Same l' := by
  have hdisjoint : ∀ done ∈ steps.inits, DisjointOwners (History.run "s" done).current := by
    decide +kernel
  have hbatch : batch.Rebuilds (History.run "s" steps).current := by
    refine ⟨rfl, ?_⟩
    rw [ReadBatch.merged, batch, List.map_map]
    exact (List.map_id' _).symm ▸ List.reverse_perm _
  refine (History.same_as_rebuild "s" steps (by decide +kernel)
    (fun done h => hdisjoint done ((List.mem_inits _ _).2 h)) (by decide +kernel) batch hbatch
      {} 0).resolve_right fun h => ?_
  exact absurd h.2 (by decide +kernel)

end Rebuilding

end Crossref
