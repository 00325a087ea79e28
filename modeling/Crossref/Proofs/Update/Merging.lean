/-
A merge, as seen in the ledger. If the store mirrors a ledger before the merge, it
mirrors the merged ledger after it and is settled; the merge can only be refused
for a number that does not fit into a word or for want of ids, and then the store is
as it was.
-/
import Crossref.Proofs.Store.Blocks
import Crossref.Proofs.Store.Upkeep
import Crossref.Proofs.Update.Composition
import Crossref.Proofs.Update.Demand

namespace Crossref

open StoreM StoreM.Ends

variable {s : Store} {c : Contents} {L : Ledger} {fit : Prop}

namespace Update

/-! ## The work of a merge -/

theorem purge_ends (h : c.Mirrors L) (path : String) :
    Ends s (purge path) c (fun _ c' => c'.Mirrors (L.purge path)) (Refused fit) := by
  refine query_bind h.sound.toComplete (refuses_of_fits (by simp)) ?_
  cases hfound : c.fileId? path with
  | none => exact Ends.pure ((h.purge_of_unrecorded hfound).symm ▸ h)
  | some id => exact Store.purgeArtifact_ends h ((h.sound.fileId?_eq_some).1 hfound)

theorem touch_ends (h : c.Mirrors L) (path : String) (mtime : Int) :
    Ends s (touch path mtime) c (fun _ c' => c'.Mirrors (L.touch path mtime)) (Refused fit) := by
  refine query_bind h.sound.toComplete (refuses_of_fits (by simp)) ?_
  cases hfound : c.fileId? path with
  | none => exact Ends.pure ((h.touch_of_unrecorded hfound mtime).symm ▸ h)
  | some id => exact Store.touchArtifact_ends h ((h.sound.fileId?_eq_some).1 hfound) mtime

/-- A statement for each element changes the ledger once for each element. -/
theorem forM_ledger {ρ : Type} (M : Contents → Ledger → Prop) {f : ρ → StoreM PUnit}
    {change : Ledger → ρ → Ledger}
    (hstep : ∀ {c L} r, M c L → Ends s (f r) c (fun _ c' => M c' (change L r)) (Refused fit))
    (h : M c L) (rows : List ρ) :
    Ends s (rows.forM f) c (fun _ c' => M c' (rows.foldl change L)) (Refused fit) := by
  let I (rest : List ρ) (c' : Contents) : Prop :=
    ∃ L', M c' L' ∧ rest.foldl change L' = rows.foldl change L
  refine (Ends.forM I (fun r rest c₁ hI => ?_) ⟨L, h, rfl⟩).weaken ?_
  · obtain ⟨L', hm, hL⟩ := hI
    exact (hstep r hm).weaken fun _ c₂ hm₂ => ⟨_, hm₂, hL⟩
  · intro _ c' hex
    obtain ⟨L', hm, hL⟩ := hex
    exact hL ▸ hm

theorem writeUnits_ends (h : c.Mirrors L) (now : Int) {parsed : List (StaleArtifact × CompilationUnit)}
    {linked : List LinkedUnit} (hl : List.Forall₂ c.names.LinksUnit (parsed.map (·.2)) linked)
    (hfit : fit → ∀ u ∈ parsed.map (·.2), u.Fits) :
    Ends s (((parsed.map (·.1)).zip linked).forM fun (st, u) => writeUnit now st u) c
      (fun _ c' => c'.Mirrors (parsed.foldl (fun L p => L.write p.1 p.2) L) ∧
        ∀ u ∈ parsed.map (·.2), (∀ r ∈ u.references, r.location.Fits) ∧
          ∀ p ∈ u.ownParameters, fitsWord p.ordinal = true)
      (Refused fit) := by
  induction parsed generalizing c L linked with
  | nil => exact Ends.pure ⟨h, by simp⟩
  | cons p parsed ih =>
    obtain ⟨l, linked, hlp, hrest, rfl⟩ := List.forall₂_cons_left_iff.1 hl
    change Ends s (writeUnit now p.1 l >>= fun _ =>
      (((parsed.map (·.1)).zip linked).forM fun (st, u) => writeUnit now st u)) c _ _
    refine (writeUnit_ends h now p.1 hlp fun hf => hfit hf p.2 (by simp)).bind
      fun _ c₁ ⟨hm₁, hn₁, hfits⟩ => ?_
    refine (ih hm₁ (hrest.imp fun _ _ hlu => hlu.extend hn₁) fun hf u hu =>
      hfit hf u (by simp [hu])).weaken ?_
    intro _ c₂ hpost
    obtain ⟨hm₂, hfits₂⟩ := hpost
    refine ⟨hm₂, fun u hu => ?_⟩
    rcases List.mem_cons.1 hu with rfl | hu
    · exact hfits
    · exact hfits₂ u hu

/-- **A merge merges the facts of its units, and settles.** -/
theorem mergeBatch_ends (h : c.Mirrors L) {batch : ReadBatch} (hnamed : ∀ u ∈ batch.units, u.Named)
    (hfit : fit → ∀ u ∈ batch.units, u.Fits) (touched : List (String × Int)) (now : Int) :
    Ends s (mergeBatch batch touched now) c
      (fun _ c' => c'.Mirrors (L.merge batch touched) ∧ c'.Settled ∧ ∀ u ∈ batch.units, u.Fits)
      (Refused fit) := by
  refine (forM_ledger Contents.Mirrors (fun st hm => purge_ends hm st.artifact.path) h
    batch.attempted).bind fun _ c₁ hm₁ => ?_
  refine (forM_ledger Contents.Mirrors (fun t hm => touch_ends hm t.1 t.2) hm₁ touched).bind
    fun _ c₂ hm₂ => ?_
  refine (linkBatch_ends hm₂ hnamed hfit).bind fun linked c₃ ⟨hm₃, hl₃, howned⟩ => ?_
  refine (writeUnits_ends hm₃ now hl₃ hfit).bind fun _ c₄ ⟨hm₄, hfits⟩ => ?_
  refine (Store.detachUndeclared_ends hm₄).bind fun _ c₅ ⟨hm₅, hfree⟩ => ?_
  refine (Store.pruneOrphans_ends hm₅ hfree).bind fun pruned c₆ ⟨hm₆, hdeclared⟩ => ?_
  refine (Store.relinkPending_ends hm₆ hdeclared).bind fun relinked c₇ ⟨hm₇, hsettled⟩ => ?_
  have hunits : ∀ u ∈ batch.units, u.Fits := fun u hu => by
    obtain ⟨l, -, hl⟩ := exists_right_of_forall₂ hl₃ hu
    exact hl.fits (howned u hu) (hfits u hu).1 (hfits u hu).2
  split
  · refine (Store.markIndexed_ends hm₇ now).bind fun _ c₈ ⟨hm₈, text, htext⟩ => ?_
    subst htext
    exact Ends.pure ⟨hm₈, { hsettled with }, hunits⟩
  · exact Ends.pure ⟨hm₇, hsettled, hunits⟩

end Update

/-! ## Runs -/

/-- An operation on an idle store leaves it idle. -/
def StoreM.Runs (s : Store) {α : Type} (x : StoreM α) (ok : α → Contents → Prop)
    (bad : Failure → Contents → Prop) : Prop :=
  match x s with
  | (.ok a, s') => s'.Idle ∧ ok a s'.contents
  | (.error e, s') => s'.Idle ∧ bad e s'.contents

namespace StoreM.Runs

variable {α β : Type} {ok : α → Contents → Prop} {bad : Failure → Contents → Prop}

theorem of_ends {x : StoreM α} (hs : s.Idle) (h : Ends s x s.contents ok bad) : Runs s x ok bad := by
  unfold Ends at h
  unfold Runs
  rw [hs.holding] at h
  rcases hx : x s with ⟨e | a, s'⟩
  · simp only [hx] at h
    obtain ⟨c', rfl, hbad⟩ := h
    exact ⟨⟨hs.depth, rfl, rfl⟩, hbad⟩
  · simp only [hx] at h
    obtain ⟨c', rfl, hok⟩ := h
    exact ⟨⟨hs.depth, rfl, rfl⟩, hok⟩

theorem bind {x : StoreM α} {f : α → StoreM β} {ok' : β → Contents → Prop} (hx : Runs s x ok bad)
    (hf : ∀ a s', s'.Idle → ok a s'.contents → Runs s' (f a) ok' bad) : Runs s (x >>= f) ok' bad := by
  unfold Runs at hx ⊢
  rw [bind_apply]
  rcases hr : x s with ⟨e | a, s'⟩
  · simp only [hr] at hx
    exact hx
  · simp only [hr] at hx
    exact hf a s' hx.1 hx.2

theorem get {f : Store → StoreM β} {ok : β → Contents → Prop} (h : Runs s (f s) ok bad) :
    Runs s (get >>= f) ok bad :=
  h

theorem weaken {x : StoreM α} {bad' : Failure → Contents → Prop} (h : Runs s x ok bad)
    (hbad : ∀ e c, bad e c → bad' e c) : Runs s x ok bad' := by
  unfold Runs at h ⊢
  rcases hx : x s with ⟨e | a, s'⟩
  · simp only [hx] at h
    exact ⟨h.1, hbad e _ h.2⟩
  · simp only [hx] at h
    exact h

/-- What never fails answers. -/
theorem answers {x : StoreM α} (h : Runs s x ok fun _ _ => False) :
    ∃ a, (x s).1 = .ok a ∧ (x s).2.Idle ∧ ok a (x s).2.contents := by
  unfold Runs at h
  rcases hx : x s with ⟨e | a, s'⟩
  · simp only [hx, and_false] at h
  · simp only [hx] at h
    exact ⟨a, rfl, h⟩

/-- An outermost block that fails takes back everything that its body did until then. -/
theorem transaction {x : StoreM α} {R : Contents → Contents → Prop} (hs : s.Idle) (hx : Acts R x)
    (h : Ends s x s.contents ok bad) :
    Runs s (StoreM.transaction x) ok fun e c =>
      c = s.contents ∧ ∃ e', e = e'.ofBlock ∧ (x s).1 = .error e' ∧ bad e' (x s).2.contents := by
  unfold Ends at h
  rw [hs.holding] at h
  unfold Runs
  rw [transaction_apply hx hs]
  rcases hr : x s with ⟨e | a, s'⟩
  · simp only [hr] at h
    obtain ⟨c', rfl, hbad⟩ := h
    exact ⟨hs, rfl, e, rfl, rfl, hbad⟩
  · simp only [hr] at h
    obtain ⟨c', rfl, hok⟩ := h
    exact ⟨⟨hs.depth, rfl, rfl⟩, hok⟩

theorem throwing {x : StoreM α} {g : Failure → Failure} (h : Runs s x ok bad) :
    Runs s (tryCatch x fun e => throw (g e)) ok fun e c => ∃ e', e = g e' ∧ bad e' c := by
  unfold Runs at h ⊢
  rw [throwing_apply]
  rcases hx : x s with ⟨e | a, s'⟩
  · simp only [hx] at h
    exact ⟨h.1, e, rfl, h.2⟩
  · simp only [hx] at h
    exact h

end StoreM.Runs

/-! ## Applying a plan -/

theorem Store.isIndexed_ends (h : c.Sound) :
    Ends s (Store.isIndexed (c.setting? Contents.indexedKey)) c (fun _ c' => c' = c)
      fun _ _ => False := by
  unfold Store.isIndexed
  cases hrecorded : c.setting? Contents.indexedKey with
  | none => exact Ends.pure rfl
  | some text =>
    have hreal : Text.isReal text.toList = true := h.indexed text hrecorded
    simp only [hreal]
    split <;> exact Ends.pure rfl

theorem Store.stats_ends (h : c.Sound) :
    Ends s Store.stats c (fun _ c' => c' = c) fun _ _ => False := by
  have hbad : Refuses [] (fun _ _ => False) c := fun hw => absurd hw (by decide)
  -- eight queries, which change nothing
  refine query_bind h.toComplete hbad ?_
  refine query_bind h.toComplete hbad ?_
  refine query_bind h.toComplete hbad ?_
  refine query_bind h.toComplete hbad ?_
  refine query_bind h.toComplete hbad ?_
  refine query_bind h.toComplete hbad ?_
  refine query_bind h.toComplete hbad ?_
  refine query_bind h.toComplete hbad ?_
  exact (Store.isIndexed_ends h).keep_bind fun _ => Ends.pure rfl

namespace Update

/-- What a merge raises where there is no id left: the statement that found none has ended the transaction. -/
def noRoom (path : String) : Failure :=
  .connection (.mergeFailed path .cannotRollback)

/-- Why a merge is refused: a number of its units does not fit into a word, or some counter has fewer ids left than
the merge may take. -/
inductive RefusedFor (s : Store) (batch : ReadBatch) : Failure → Prop where
  | number (unfit : ¬∀ u ∈ batch.units, u.Fits) : RefusedFor s batch .integerRange
  | room (lacks : s.contents.Lacks batch.demand) : RefusedFor s batch (noRoom s.path)

theorem refusedFor_of_refused (hs : s.Idle) {batch : ReadBatch} {touched : List (String × Int)} {now : Int}
    {e : Failure} (he : (mergeBatch batch touched now s).1 = .error e)
    (hrefused : Refused (∀ u ∈ batch.units, u.Fits) e (mergeBatch batch touched now s).2.contents) :
    RefusedFor s batch (mergeFailure s.path e.ofBlock) := by
  obtain ⟨rfl, hunfit⟩ | rfl := hrefused
  · exact .number hunfit
  · exact .room ((mergeBatch_takes batch touched now).lacks hs.transaction he)

/-- **A merge succeeds, or is refused and changes nothing.** -/
theorem merge_runs (hs : s.Idle) (h : s.contents.Mirrors L) {batch : ReadBatch}
    (hnamed : ∀ u ∈ batch.units, u.Named) (plan : UpdatePlan) (now : Int) :
    Runs s (merge plan batch now)
      (fun _ c' => c'.Mirrors (L.merge batch plan.touched) ∧ c'.Settled ∧ ∀ u ∈ batch.units, u.Fits)
      (fun e c' => c' = s.contents ∧ RefusedFor s batch e) := by
  have hbatch : Ends s (mergeBatch batch plan.touched now) s.contents
      (fun _ c' => c'.Mirrors (L.merge batch plan.touched) ∧ c'.Settled ∧ ∀ u ∈ batch.units, u.Fits)
      (Refused (∀ u ∈ batch.units, u.Fits)) := mergeBatch_ends h hnamed id plan.touched now
  refine Runs.get ?_
  refine Runs.bind ((Runs.transaction hs (mergeBatch_acts batch plan.touched now) hbatch).throwing.weaken ?_)
    fun counts s₁ hs₁ ⟨hm, hsettled, hfits⟩ => ?_
  · intro e c' hpost
    obtain ⟨_, rfl, hc, e', rfl, he, hrefused⟩ := hpost
    exact ⟨hc, refusedFor_of_refused hs he hrefused⟩
  · have hstats := Runs.of_ends hs₁ (Store.stats_ends hm.sound)
    refine (hstats.weaken fun _ _ hf => hf.elim).bind fun stats s₂ hs₂ hc => ?_
    exact ⟨hs₂, hc ▸ hm, hc ▸ hsettled, hfits⟩

end Update

end Crossref
