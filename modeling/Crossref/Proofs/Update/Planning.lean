/-
What a plan lists. A plan that is made for a store names no artifact twice: files
are looked at once for every path, and each gets one verdict. What is listed as
stale, touched or up to date got that verdict.
-/
import Crossref.Proofs.Store.Outcome
import Crossref.Proofs.Workspace.Files

namespace Crossref

/-- No artifact is stale twice. -/
def UpdatePlan.Distinct (p : UpdatePlan) : Prop :=
  (p.stale.map (·.artifact.path)).Nodup

instance (p : UpdatePlan) : Decidable p.Distinct :=
  inferInstanceAs (Decidable (List.Nodup _))

/-- What a plan lists got its place by a verdict. -/
structure UpdatePlan.Judged (v : ArtifactFile → Verdict) (p : UpdatePlan) : Prop where
  stale : ∀ s ∈ p.stale, v s.artifact = .stale s.mtime s.isNew
  touched : ∀ t ∈ p.touched, ∃ a, a.path = t.1 ∧ v a = .touched t.2
  upToDate : ∀ path ∈ p.upToDate, ∃ a, a.path = path ∧ (v a = .upToDate ∨ ∃ mtime, v a = .touched mtime)

namespace Update

/-! ## Where the artifacts are -/

section
variable {t t' : FileTree} {files : List ArtifactFile}

theorem isOk_iff {ε α : Type} {r : Except ε α} : r.isOk = true ↔ ∃ a, r = .ok a := by
  cases r with
  | error e => exact ⟨nofun, nofun⟩
  | ok a => exact ⟨fun _ => ⟨a, rfl⟩, fun _ => rfl⟩

/-- The path of the artifact can be resolved. -/
def Resolves (t : FileTree) (f : ArtifactFile) : Prop :=
  ∃ q, t.resolve f.path = .ok q

instance (t : FileTree) (f : ArtifactFile) : Decidable (Resolves t f) :=
  decidable_of_iff _ isOk_iff

/-- The path under which an artifact is recorded. -/
def artifactPath (t : FileTree) (path : String) : String :=
  slashed (Path.absolute (t.namedPlace (.ofString path)))

/-- The artifacts under the paths by which they are recorded. -/
def located (t : FileTree) (files : List ArtifactFile) : List ArtifactFile :=
  files.map fun f => { f with path := artifactPath t f.path }

theorem Resolves.locate {f : ArtifactFile} (h : Resolves t f) :
    locate t f = .ok { f with path := artifactPath t f.path } := by
  obtain ⟨q, hq⟩ := h
  unfold Update.locate artifactPath
  rw [hq, FileTree.namedPlace_of_resolve hq]
  rfl

/-- Artifacts are located if the paths of all of them can be resolved, and else fail with the first that cannot. -/
theorem mapM_locate_cases (t : FileTree) (files : List ArtifactFile) :
    (∀ f ∈ files, Resolves t f) ∧ files.mapM (locate t) = .ok (located t files) ∨
      ∃ before f after e, files = before ++ f :: after ∧ (∀ g ∈ before, Resolves t g) ∧
        t.resolve f.path = .error e ∧ files.mapM (locate t) = .error e := by
  induction files with
  | nil => exact .inl ⟨by simp, rfl⟩
  | cons f files ih =>
    rw [List.mapM_cons]
    cases hresolve : t.resolve f.path with
    | error e =>
      refine .inr ⟨[], f, files, e, rfl, by simp, hresolve, ?_⟩
      unfold locate
      rw [hresolve]
      rfl
    | ok q =>
      have hf : Resolves t f := ⟨q, hresolve⟩
      rw [hf.locate]
      rcases ih with ⟨hall, hrest⟩ | ⟨before, g, after, e, rfl, hbefore, hg, hrest⟩
      · rw [hrest]
        exact .inl ⟨List.forall_mem_cons.2 ⟨hf, hall⟩, rfl⟩
      · rw [hrest]
        exact .inr ⟨f :: before, g, after, e, rfl, List.forall_mem_cons.2 ⟨hf, hbefore⟩, hg, rfl⟩

theorem mapM_locate_iff {found : List ArtifactFile} :
    files.mapM (locate t) = .ok found ↔ (∀ f ∈ files, Resolves t f) ∧ found = located t files := by
  rcases mapM_locate_cases t files with ⟨hall, hfound⟩ | ⟨before, f, after, e, rfl, -, hresolve, herror⟩
  · rw [hfound]
    exact ⟨fun h => ⟨hall, (Except.ok.inj h).symm⟩, fun h => h.2 ▸ rfl⟩
  · rw [herror]
    refine ⟨nofun, fun h => ?_⟩
    obtain ⟨q, hq⟩ := h.1 f (by simp)
    cases hresolve.symm.trans hq

theorem mapM_locate_error {e : Failure} (h : files.mapM (locate t) = .error e) :
    ∃ f ∈ files, t.resolve f.path = .error e := by
  rcases mapM_locate_cases t files with ⟨-, hfound⟩ | ⟨before, f, after, e', rfl, -, hresolve, herror⟩
  · cases hfound.symm.trans h
  · obtain rfl := Except.error.inj (herror.symm.trans h)
    exact ⟨f, by simp, hresolve⟩

/-- Where the paths are resolved alike, the artifacts are located alike. -/
theorem located_congr (h : ∀ f ∈ files, Resolves t f) (hsame : ∀ f ∈ files, t'.resolve f.path = t.resolve f.path) :
    located t' files = located t files := by
  refine List.map_congr_left fun f hf => ?_
  obtain ⟨q, hq⟩ := h f hf
  unfold artifactPath
  rw [FileTree.namedPlace_of_resolve hq, FileTree.namedPlace_of_resolve ((hsame f hf).trans hq)]

end

/-! ## Plans -/

theorem distinct_nodup (files : List ArtifactFile) : ((distinct files).map (·.path)).Nodup := by
  have hstep (seen : List ArtifactFile) (h : (seen.map (·.path)).Nodup) (files : List ArtifactFile) :
      ((files.foldl (fun seen f => if seen.any (·.path = f.path) then seen else seen ++ [f])
        seen).map (·.path)).Nodup := by
    induction files generalizing seen with
    | nil => exact h
    | cons f files ih =>
      refine ih _ ?_
      beta_reduce
      split
      · exact h
      next hnew =>
        rw [List.map_append]
        refine List.nodup_append.2 ⟨h, by simp, ?_⟩
        simp only [List.any_eq_true, decide_eq_true_eq, not_exists, not_and] at hnew
        simp only [List.mem_map, List.mem_singleton]
        intro _ hmem _ hmem'
        obtain ⟨g, hg, rfl⟩ := hmem
        obtain ⟨_, rfl, rfl⟩ := hmem'
        exact hnew g hg
  exact hstep [] List.nodup_nil files

/-- A verdict makes at most the one artifact stale. -/
theorem addVerdict_stale (plan : UpdatePlan) (a : ArtifactFile) (v : Verdict) :
    (addVerdict plan a v).stale.map (·.artifact.path) = plan.stale.map (·.artifact.path) ∨
      (addVerdict plan a v).stale.map (·.artifact.path) =
        plan.stale.map (·.artifact.path) ++ [a.path] := by
  cases v with
  | runtime => exact .inl rfl
  | unreadable e => exact .inl rfl
  | stale mtime isNew => exact .inr (by simp [addVerdict])
  | upToDate => exact .inl rfl
  | touched mtime => exact .inl rfl

/-- The stale artifacts are among those that were looked at, in order. -/
theorem stale_sublist (v : ArtifactFile → Verdict) (files : List ArtifactFile) (plan : UpdatePlan) :
    ((files.foldl (fun plan a => addVerdict plan a (v a)) plan).stale.map (·.artifact.path)).Sublist
      (plan.stale.map (·.artifact.path) ++ files.map (·.path)) := by
  induction files generalizing plan with
  | nil => simp
  | cons a files ih =>
    refine (ih (addVerdict plan a (v a))).trans ?_
    rw [List.map_cons]
    rcases addVerdict_stale plan a (v a) with h | h <;> rw [h]
    · exact (List.sublist_cons_self _ _).append_left _
    · rw [List.append_assoc]
      exact List.Sublist.refl _

theorem planFor_distinct (t : FileTree) (stamps : Stamps) (includeRuntime : Bool)
    (files : List ArtifactFile) : (planFor t stamps includeRuntime files).Distinct :=
  (distinct_nodup files).sublist (stale_sublist (verdict t stamps includeRuntime) (distinct files) {})

theorem addVerdict_judged {v : ArtifactFile → Verdict} {p : UpdatePlan} (h : p.Judged v)
    (a : ArtifactFile) : (addVerdict p a (v a)).Judged v := by
  cases hv : v a with
  | runtime => exact { h with }
  | unreadable e => exact { h with }
  | stale mtime isNew =>
    refine { h with stale := fun s hs => ?_ }
    rcases List.mem_append.1 hs with hs | hs
    · exact h.stale s hs
    · exact List.mem_singleton.1 hs ▸ hv
  | upToDate =>
    refine { h with upToDate := fun path hp => ?_ }
    rcases List.mem_append.1 hp with hp | hp
    · exact h.upToDate path hp
    · exact ⟨a, (List.mem_singleton.1 hp).symm, .inl hv⟩
  | touched mtime =>
    refine { h with touched := fun t ht => ?_, upToDate := fun path hp => ?_ }
    · rcases List.mem_append.1 ht with ht | ht
      · exact h.touched t ht
      · obtain rfl := List.mem_singleton.1 ht
        exact ⟨a, rfl, hv⟩
    · rcases List.mem_append.1 hp with hp | hp
      · exact h.upToDate path hp
      · exact ⟨a, (List.mem_singleton.1 hp).symm, .inr ⟨mtime, hv⟩⟩

theorem planFor_judged (t : FileTree) (stamps : Stamps) (includeRuntime : Bool)
    (files : List ArtifactFile) :
    (planFor t stamps includeRuntime files).Judged (verdict t stamps includeRuntime) := by
  have hfold (files : List ArtifactFile) (p : UpdatePlan)
      (h : p.Judged (verdict t stamps includeRuntime)) :
      (files.foldl (fun plan a => addVerdict plan a (verdict t stamps includeRuntime a)) p).Judged
        (verdict t stamps includeRuntime) := by
    induction files generalizing p with
    | nil => exact h
    | cons a files ih => exact ih _ (addVerdict_judged h a)
  exact hfold (distinct files) {} ⟨by simp, by simp, by simp⟩

/-- **A plan that is made names no artifact twice.** -/
theorem plan_distinct {t : FileTree} {files : List ArtifactFile} {includeRuntime : Bool} {s : Store}
    {p : UpdatePlan} (h : (plan t files includeRuntime s).1 = .ok p) : p.Distinct := by
  have hget (f : Store → StoreM UpdatePlan) : (get >>= f) s = f s s := rfl
  unfold plan at h
  rw [hget, StoreM.bind_apply] at h
  split at h
  next stamps s' _ =>
    cases hlocated : files.mapM (locate t) with
    | ok located =>
      rw [hlocated] at h
      obtain rfl : planFor t stamps includeRuntime located = p := Except.ok.inj h
      exact planFor_distinct t stamps includeRuntime located
    | error e =>
      rw [hlocated] at h
      cases h
  next => cases h

end Update

end Crossref
