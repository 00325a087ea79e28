/-
Contents that are settled stay as they are. Nothing is detached, no orphan goes and
nothing is linked; all that a touch changes is the recorded time of one artifact.
-/
import Crossref.Proofs.Store.Statements
import Crossref.Proofs.Store.Upkeep

namespace Crossref

open StoreM StoreM.Ends

namespace Contents

variable {c : Contents}

/-! ## Settled contents -/

theorem Settled.orphan? (h : c.Settled) (id : Option Int) : c.orphan? id = none := by
  refine List.find?_eq_none.2 fun e he => ?_
  simp [h.declared e he]

theorem Settled.orphans (h : c.Settled) : c.orphans = [] := by
  refine List.filter_eq_nil_iff.2 fun e he => ?_
  simp [h.declared e he]

theorem Settled.detach (h : c.Settled) (l : StoredLink) : l.detach c = l := by
  unfold StoredLink.detach
  rw [h.orphan? l.id]

theorem relink_of_awaited? {l : StoredLink} (h : l.awaited? c = none) : l.relink c = l := by
  unfold StoredLink.relink
  rw [h]

theorem map_eq_self {ρ : Type} {rows : List ρ} {f : ρ → ρ} (h : ∀ r ∈ rows, f r = r) :
    rows.map f = rows :=
  (List.map_congr_left h).trans (List.map_id rows)

theorem Settled.detached (h : c.Settled) :
    c.detachTargets.detachScopes.detachParameters.dropOrphanParameters = c := by
  have htargets : c.detachTargets = c := by
    unfold detachTargets
    rw [map_eq_self fun r _ => by rw [h.detach]]
  have hscopes : c.detachScopes = c := by
    unfold detachScopes
    rw [map_eq_self fun r _ => by rw [h.detach]]
  have hparameters : c.detachParameters = c := by
    unfold detachParameters
    rw [map_eq_self fun r _ => by rw [h.detach]]
  have hdropped : c.dropOrphanParameters = c := by
    unfold dropOrphanParameters
    rw [List.filter_eq_self.2 fun p _ => by rw [h.orphan?, Option.isNone_none]]
  rw [htargets, hscopes, hparameters, hdropped]

theorem Settled.dropOrphans (h : c.Settled) : c.dropOrphans = .ok c := by
  have hfree : c.orphansFree = true := by simp [orphansFree, h.orphan?]
  unfold Contents.dropOrphans
  rw [if_pos hfree, List.filter_eq_self.2 h.declared]

theorem Settled.relinkTargets (h : c.Settled) : c.relinkTargets = c := by
  unfold Contents.relinkTargets
  rw [map_eq_self fun r hr => by rw [relink_of_awaited? (h.targets r hr)]]

theorem Settled.relinkScopes (h : c.Settled) : c.relinkScopes = c := by
  unfold Contents.relinkScopes
  rw [map_eq_self fun r hr => by rw [relink_of_awaited? (h.scopes r hr)]]

theorem Settled.relinkParameters (h : c.Settled) : c.relinkParameters = c := by
  unfold Contents.relinkParameters
  rw [map_eq_self fun p hp => by rw [relink_of_awaited? (h.parameters p hp)]]

/-! ## Other times -/

/-- Some artifacts are recorded with another time. -/
def retimed (c : Contents) (time : String → Option Int) : Contents :=
  { c with
    artifacts := c.artifacts.map fun a =>
      { a with mtime := ((c.filePath? a.fileId).bind time).getD a.mtime } }

variable {time time' : String → Option Int}

/-- The same rows have the same times if they do so path by path. -/
theorem retimed_congr (h : ∀ a ∈ c.artifacts, ∀ path, c.filePath? a.fileId = some path →
    (time path).getD a.mtime = (time' path).getD a.mtime) : c.retimed time = c.retimed time' := by
  unfold retimed
  rw [List.map_congr_left fun a ha => ?_]
  cases hpath : c.filePath? a.fileId with
  | none => rfl
  | some path => simp only [Option.bind_some, h a ha path hpath]

theorem retimed_none : c.retimed (fun _ => none) = c := by
  unfold retimed
  rw [map_eq_self fun a _ => by rw [Option.bind_fun_none, Option.getD_none]]

/-- Of two times the later one counts. -/
theorem retimed_retimed :
    (c.retimed time).retimed time' = c.retimed fun path => (time' path).or (time path) := by
  have htimes (p : Option String) (mtime : Int) : (p.bind time').getD ((p.bind time).getD mtime) =
      (p.bind fun path => (time' path).or (time path)).getD mtime := by
    cases p with
    | none => rfl
    | some path =>
      simp only [Option.bind_some]
      cases time' path <;> rfl
  unfold retimed
  simp only [List.map_map]
  rw [List.map_congr_left fun a _ => ?_]
  exact congrArg (fun mtime => ({ a with mtime } : ArtifactRow)) (htimes (c.filePath? a.fileId) a.mtime)

theorem Settled.retimed (h : c.Settled) (time : String → Option Int) : (c.retimed time).Settled :=
  ⟨h.declared, h.targets, h.scopes, h.parameters⟩

theorem Sound.retimed (h : c.Sound) (time : String → Option Int) : (c.retimed time).Sound :=
  { h with }

/-- The time of the one path. -/
def timeAt (path : String) (mtime : Int) (q : String) : Option Int :=
  if q = path then some mtime else none

theorem Sound.touchArtifact_eq (h : c.Sound) {id : Int} {path : String} (hid : c.filePath? id = some path)
    (mtime : Int) : c.touchArtifact id mtime = c.retimed (timeAt path mtime) := by
  unfold Contents.touchArtifact Contents.retimed
  rw [List.map_congr_left fun a _ => ?_]
  cases hpath : c.filePath? a.fileId with
  | none =>
    have hne : a.fileId ≠ id := by
      rintro rfl
      cases hpath.symm.trans hid
    rw [if_neg hne]
    rfl
  | some q =>
    rw [Option.bind_some]
    unfold timeAt
    by_cases hq : q = path
    · subst hq
      rw [if_pos (h.path_inj hpath hid), if_pos rfl]
      rfl
    · have hne : a.fileId ≠ id := by
        rintro rfl
        exact hq (Option.some.inj (hpath.symm.trans hid))
      rw [if_neg hne, if_neg hq]
      rfl

theorem Sound.retimed_of_unrecorded (h : c.Sound) {path : String} (hp : c.fileId? path = none)
    (mtime : Int) : c.retimed (timeAt path mtime) = c := by
  refine (retimed_congr fun a _ q hq => ?_).trans retimed_none
  unfold timeAt
  rw [if_neg (h.ne_of_unrecorded hp hq)]

end Contents

/-! ## The statements -/

namespace Store

variable {s : Store} {c : Contents} {fit : Prop}

theorem detachUndeclared_still (h : c.Complete) (hsettled : c.Settled) :
    Ends s detachUndeclared c (fun _ c' => c' = c) (Refused fit) :=
  (detachUndeclared_leaves h).weaken fun _ _ hc => hc.trans hsettled.detached

theorem pruneOrphans_still (h : c.Complete) (hsettled : c.Settled) :
    Ends s pruneOrphans c (fun n c' => n = 0 ∧ c' = c) (Refused fit) := by
  refine (needTables h).keep_bind fun _ => (needParents h).keep_bind fun _ => ?_
  refine Ends.get ((StoreM.Ends.step (refuses_of_fits (by simp)) (.inl ⟨_, hsettled.dropOrphans, rfl⟩)).bind ?_)
  intro _ _ hpost
  obtain ⟨rfl, -⟩ := hpost
  refine Ends.pure ⟨?_, rfl⟩
  rw [holding_contents, hsettled.orphans, List.length_nil]

theorem relinkPending_still (h : c.Complete) (hsettled : c.Settled) :
    Ends s relinkPending c (fun n c' => n = 0 ∧ c' = c) (Refused fit) := by
  have hnone {ρ : Type} {rows : List ρ} {link : ρ → StoredLink}
      (hrows : ∀ r ∈ rows, (link r).awaited? c = none) :
      rows.countP (fun r => ((link r).awaited? c).isSome) = 0 :=
    List.countP_eq_zero.2 fun r hr => by simp [hrows r hr]
  refine changeLinks_bind h ?_
  rw [hsettled.relinkTargets]
  refine changeLinks_bind h ?_
  rw [hsettled.relinkScopes]
  refine changeLinks_bind h ?_
  rw [hsettled.relinkParameters]
  refine Ends.pure ⟨?_, rfl⟩
  rw [hnone hsettled.targets, hnone hsettled.scopes, hnone hsettled.parameters]

end Store

end Crossref
