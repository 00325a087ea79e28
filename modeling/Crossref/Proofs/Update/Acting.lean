/-
Whole merges. A merge acts on the contents of its store alone: what it leaves
succeeds what was there, two stores with the same contents end a merge alike,
whatever their paths but for the path in a failure, and a merge at another time
leaves the same but for the times.
-/
import Crossref.Proofs.Update.History

namespace Crossref

open StoreM Contents

namespace Update

/-- What an update answers. -/
def answer (plan : UpdatePlan) (batch : ReadBatch) (counts : MergeCounts) (stats : Stats) : UpdateStats :=
  { added := batch.parsed.countP (·.1.isNew)
    updated := batch.parsed.length - batch.parsed.countP (·.1.isNew)
    upToDate := plan.upToDate.length
    runtimeSkipped := plan.runtimeSkipped.length
    cancelled := batch.cancelled
    relinked := counts.relinked
    pruned := counts.pruned
    staged := false
    errors := plan.errors ++ batch.failed.map (·.2)
    stats }

variable {s s' : Store} {L : Ledger} {batch : ReadBatch}

/-- **A merge answers what its work counted, or is refused and takes everything back.** -/
theorem merge_apply (hs : s.Idle) (h : s.contents.Mirrors L) (hnamed : ∀ u ∈ batch.units, u.Named)
    (plan : UpdatePlan) (now : Int) :
    merge plan batch now s =
      match mergeBatch batch plan.touched now s with
      | (.ok counts, s') => (.ok (answer plan batch counts s'.contents.stats), s')
      | (.error e, _) => (.error (mergeFailure s.path e.ofBlock), s) := by
  have hends : Ends s (mergeBatch batch plan.touched now) s.contents
      (fun _ c' => c'.Mirrors (L.merge batch plan.touched) ∧ c'.Settled ∧ ∀ u ∈ batch.units, u.Fits)
      (Refused (∀ u ∈ batch.units, u.Fits)) := mergeBatch_ends h hnamed id plan.touched now
  unfold Ends at hends
  rw [hs.holding] at hends
  unfold merge
  rw [get_apply, bind_apply, throwing_apply, transaction_apply (mergeBatch_acts batch plan.touched now) hs]
  rcases hr : mergeBatch batch plan.touched now s with ⟨e | counts, s'⟩ <;> simp only [hr] at hends ⊢
  obtain ⟨c', rfl, hm, -⟩ := hends
  rw [bind_apply, Store.stats_apply rfl hm.sound]
  rfl

/-- What a merge leaves succeeds what was there, also if it is taken back. -/
theorem merge_succeeds (hs : s.Idle) (h : s.contents.Mirrors L) (hnamed : ∀ u ∈ batch.units, u.Named)
    (plan : UpdatePlan) (now : Int) :
    s.contents.Succeeds (merge plan batch now s).2.contents := by
  have hsucceeds := (mergeBatch_acts batch plan.touched now).changes hs.transaction
  rw [merge_apply hs h hnamed]
  rcases hr : mergeBatch batch plan.touched now s with ⟨e | counts, s'⟩ <;> simp only [hr] at hsucceeds ⊢
  · exact Std.Refl.refl s.contents
  · exact hsucceeds

/-- A merge changes nothing but the contents, and leaves an idle store. -/
theorem merge_idle (hs : s.Idle) (h : s.contents.Mirrors L) (hnamed : ∀ u ∈ batch.units, u.Named)
    (plan : UpdatePlan) (now : Int) :
    (merge plan batch now s).2.Idle ∧ (merge plan batch now s).2.path = s.path := by
  have honly := (mergeBatch_acts batch plan.touched now).only hs.transaction
  rw [merge_apply hs h hnamed]
  rcases hr : mergeBatch batch plan.touched now s with ⟨e | counts, s'⟩ <;> simp only [hr] at honly ⊢
  · exact ⟨hs, trivial⟩
  · rw [honly]
    exact ⟨⟨hs.depth, hs.transaction, hs.writable⟩, rfl⟩

end Update

/-- The failure without the path of the store in which a merge failed. -/
def Failure.unplaced : Failure → Failure
  | .connection (.mergeFailed _ fault) => .connection (.mergeFailed "" fault)
  | e => e

namespace Update

theorem unplaced_mergeFailure (path path' : String) (e : Failure) :
    (mergeFailure path e).unplaced = (mergeFailure path' e).unplaced := by
  cases e <;> rfl

/-- **Stores with the same contents end a merge alike, whatever their paths.** -/
theorem merge_alike (hs : s.Idle) (hs' : s'.Idle) (hsame : s.contents = s'.contents)
    (h : s.contents.Mirrors L) (hnamed : ∀ u ∈ batch.units, u.Named) (plan : UpdatePlan) (now : Int) :
    (merge plan batch now s).1.mapError Failure.unplaced = (merge plan batch now s').1.mapError Failure.unplaced ∧
      (merge plan batch now s).2.contents = (merge plan batch now s').2.contents := by
  have hsees := (mergeBatch_acts batch plan.touched now).sees
    ⟨hsame, hs.writable.trans hs'.writable.symm, hs.transaction.trans hs'.transaction.symm⟩
  rw [merge_apply hs h hnamed, merge_apply hs' (hsame ▸ h) hnamed]
  generalize mergeBatch batch plan.touched now s = out at hsees ⊢
  generalize mergeBatch batch plan.touched now s' = out' at hsees ⊢
  obtain ⟨r, s₁⟩ := out
  obtain ⟨r', s₁'⟩ := out'
  obtain ⟨rfl, halike⟩ : r = r' ∧ s₁.Alike s₁' := hsees
  have hcontents := halike.contents
  cases r with
  | ok counts => exact ⟨by simp only [hcontents], hcontents⟩
  | error e => exact ⟨congrArg Except.error (unplaced_mergeFailure s.path s'.path e.ofBlock), hsame⟩

/-- **A merge at another time ends alike but for the times.** -/
theorem merge_timeless (hs : s.Idle) (h : s.contents.Mirrors L) (hnamed : ∀ u ∈ batch.units, u.Named)
    (plan : UpdatePlan) (now now' : Int) :
    (merge plan batch now s).1 = (merge plan batch now' s).1 ∧
      (merge plan batch now s).2.contents.untimed = (merge plan batch now' s).2.contents.untimed := by
  have hends := (mergeBatch_timeless batch plan.touched now now').ends
    ⟨hs.transaction, hs.transaction, rfl, rfl⟩
  rw [merge_apply hs h hnamed, merge_apply hs h hnamed]
  generalize mergeBatch batch plan.touched now s = out at hends ⊢
  generalize mergeBatch batch plan.touched now' s = out' at hends ⊢
  obtain ⟨r, s₁⟩ := out
  obtain ⟨r', s₁'⟩ := out'
  obtain ⟨rfl, halike⟩ : r = r' ∧ s₁.AlikeButTimes s₁' := hends
  have hcontents := halike.contents
  cases r with
  | ok counts =>
    have hstats : s₁.contents.stats = s₁'.contents.stats := by rw [← stats_untimed, hcontents, stats_untimed]
    exact ⟨by simp only [hstats], hcontents⟩
  | error e => exact ⟨rfl, rfl⟩

end Update

end Crossref
