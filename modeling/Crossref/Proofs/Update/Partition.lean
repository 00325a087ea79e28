/-
A plan accounts for every file once. However often and in whatever spelling a path
is listed, it goes into one of the lists of the plan, by its first mention and by
what the tree and the contents say of it; and every list keeps the order of the
first mentions.
-/
import Crossref.Proofs.Firsts
import Crossref.Proofs.Update.Verdicts

namespace Crossref

namespace Update

variable {t : FileTree} {files : List ArtifactFile}

/-! ## First mentions -/

theorem distinct_snoc (files : List ArtifactFile) (f : ArtifactFile) :
    distinct (files ++ [f]) =
      if (distinct files).any (·.path = f.path) then distinct files else distinct files ++ [f] := by
  rw [distinct, List.foldl_append]
  rfl

/-- Each path is looked at once, in the order of the first mentions. -/
theorem distinct_paths (files : List ArtifactFile) :
    (distinct files).map (·.path) = (files.map (·.path)).eraseDups := by
  induction files using List.reverseRecOn with
  | nil => rfl
  | append_singleton files f ih =>
    have hmem : (distinct files).any (·.path = f.path) = true ↔ f.path ∈ files.map (·.path) := by
      rw [← List.mem_eraseDups, ← ih]
      simp
    rw [distinct_snoc, List.map_append, List.map_singleton, eraseDups_snoc]
    by_cases hold : f.path ∈ files.map (·.path)
    · rw [if_pos (hmem.2 hold), if_pos hold, ih]
    · rw [if_neg (mt hmem.1 hold), if_neg hold, List.map_append, ih]
      rfl

theorem find?_distinct (files : List ArtifactFile) (path : String) :
    (distinct files).find? (·.path = path) = files.find? (·.path = path) := by
  induction files using List.reverseRecOn with
  | nil => rfl
  | append_singleton files f ih =>
    rw [distinct_snoc, List.find?_append, ← ih]
    split
    next hold =>
      obtain ⟨g, hg, hpath⟩ := List.any_eq_true.1 hold
      cases hfound : (distinct files).find? (·.path = path) with
      | some a => rfl
      | none =>
        -- the path of `f` was mentioned before, and so it is not the one looked for
        have hne := List.find?_eq_none.1 hfound g hg
        rw [decide_eq_true_eq] at hne hpath
        simp [← hpath, hne]
    · rw [List.find?_append]

theorem mem_distinct_iff {a : ArtifactFile} : a ∈ distinct files ↔ files.find? (·.path = a.path) = some a := by
  rw [← find?_distinct]
  exact ⟨find?_slot (distinct_nodup files), List.mem_of_find?_eq_some⟩

/-- The first mention of a path in any spelling. -/
def mention? (t : FileTree) (files : List ArtifactFile) (path : String) : Option ArtifactFile :=
  (located t files).find? (·.path = path)

/-- The paths that are listed, each once, in the order of the first mentions. -/
def mentioned (t : FileTree) (files : List ArtifactFile) : List String :=
  (files.map fun f => artifactPath t f.path).eraseDups

theorem distinct_located (t : FileTree) (files : List ArtifactFile) :
    (distinct (located t files)).map (·.path) = mentioned t files := by
  rw [distinct_paths, located, List.map_map]
  rfl

theorem path_of_mention? {a : ArtifactFile} {path : String} (h : mention? t files path = some a) : a.path = path := by
  simpa using List.find?_some h

theorem mem_distinct_of_mention? {a : ArtifactFile} {path : String} (h : mention? t files path = some a) :
    a ∈ distinct (located t files) := by
  rw [mem_distinct_iff, path_of_mention? h]
  exact h

/-! ## Stale artifacts -/

variable {stamps : Stamps} {includeRuntime : Bool} {a : ArtifactFile} {mtime : Int}

/-- An artifact that is looked at is stale if it has no record, or another time than the recorded one and a
content with another checksum. -/
theorem verdict_eq_stale_iff {isNew : Bool} : verdict t stamps includeRuntime a = .stale mtime isNew ↔
    (a.runtime && !includeRuntime) = false ∧ t.stat a.path = .ok mtime ∧
      (stamps.lookup a.path = none ∧ isNew = true ∨
        ∃ recorded checksum content, stamps.lookup a.path = some (recorded, checksum) ∧ mtime ≠ recorded ∧
          t.read a.path = .ok content ∧ Digest.checksum content ≠ checksum ∧ isNew = false) := by
  constructor
  · intro h
    unfold verdict at h
    split at h
    · cases h
    next hrun =>
      refine ⟨Bool.not_eq_true _ ▸ hrun, ?_⟩
      split at h
      · cases h
      next hstat hnone =>
        obtain ⟨rfl, rfl⟩ := Verdict.stale.inj h
        exact ⟨hstat, .inl ⟨hnone, rfl⟩⟩
      next now recorded checksum hstat hlookup =>
        split at h
        · cases h
        next htime =>
          split at h
          · cases h
          next content hread =>
            split at h
            · cases h
            next hsum =>
              obtain ⟨rfl, rfl⟩ := Verdict.stale.inj h
              exact ⟨hstat, .inr ⟨recorded, checksum, content, hlookup, htime, hread, hsum, rfl⟩⟩
  · rintro ⟨hrun, hstat, ⟨hnone, rfl⟩ | ⟨recorded, checksum, content, hlookup, htime, hread, hsum, rfl⟩⟩
    · exact verdict_of_new hrun hstat hnone
    · unfold verdict
      rw [hrun, hstat, hlookup, hread]
      exact (if_neg htime).trans (if_neg hsum)

end Update

/-! ## The lists of a plan -/

/-- What is filed under a path of its own has the order of the paths. -/
theorem sublist_of_filed {α β : Type} {f : α → Option β} {g : β → String} {path : α → String}
    (h : ∀ a b, f a = some b → g b = path a) (l : List α) : ((l.filterMap f).map g).Sublist (l.map path) := by
  induction l with
  | nil => exact .slnil
  | cons a l ih =>
    cases hf : f a with
    | none =>
      rw [List.filterMap_cons_none hf, List.map_cons]
      exact ih.cons _
    | some b =>
      rw [List.filterMap_cons_some hf, List.map_cons, List.map_cons, h a b hf]
      exact ih.cons_cons _

namespace UpdatePlan

/-- The plan puts every path of the files into one list. -/
structure Accounts (t : FileTree) (c : Contents) (includeRuntime : Bool) (files : List ArtifactFile) (p : UpdatePlan) :
    Prop where
  nodup : (Update.mentioned t files).Nodup
  once : (p.stale.map (·.artifact.path) ++ p.upToDate ++ p.runtimeSkipped ++ p.errors.map (·.path)).Perm
    (Update.mentioned t files)
  stale : (p.stale.map (·.artifact.path)).Sublist (Update.mentioned t files)
  upToDate : p.upToDate.Sublist (Update.mentioned t files)
  runtimeSkipped : p.runtimeSkipped.Sublist (Update.mentioned t files)
  errors : (p.errors.map (·.path)).Sublist (Update.mentioned t files)
  touched : (p.touched.map (·.1)).Sublist p.upToDate
  /-- The first mention says whether the artifact is one of the runtime. -/
  first : ∀ st ∈ p.stale, Update.mention? t files st.artifact.path = some st.artifact
  skipped_iff : ∀ path, path ∈ p.runtimeSkipped ↔
    ∃ a, Update.mention? t files path = some a ∧ a.runtime = true ∧ includeRuntime = false
  stale_iff : ∀ path mtime isNew, (∃ st ∈ p.stale, st.artifact.path = path ∧ st.mtime = mtime ∧ st.isNew = isNew) ↔
    (∃ a, Update.mention? t files path = some a ∧ ¬(a.runtime = true ∧ includeRuntime = false)) ∧
      t.stat path = .ok mtime ∧
      (¬c.Indexed path ∧ isNew = true ∨
        ∃ recorded checksum content, c.Recorded path recorded checksum ∧ mtime ≠ recorded ∧
          t.read path = .ok content ∧ Digest.checksum content ≠ checksum ∧ isNew = false)

variable {v : ArtifactFile → Verdict}

theorem sublist_stale_of (files : List ArtifactFile) :
    ((of v files).stale.map (·.artifact.path)).Sublist (files.map (·.path)) :=
  sublist_of_filed (fun _ _ h => by rw [(Verdict.stale?_eq_some.1 h).1]) files

theorem sublist_upToDate_of (files : List ArtifactFile) : ((of v files).upToDate).Sublist (files.map (·.path)) := by
  have hpath (a : ArtifactFile) (path : String) (h : (v a).upToDate? a.path = some path) : id path = a.path :=
    (Verdict.upToDate?_eq_some.1 h).1
  have hsublist := sublist_of_filed hpath files
  rwa [List.map_id] at hsublist

theorem sublist_runtimeSkipped_of (files : List ArtifactFile) :
    ((of v files).runtimeSkipped).Sublist (files.map (·.path)) := by
  have hpath (a : ArtifactFile) (path : String) (h : (v a).runtime? a.path = some path) : id path = a.path :=
    (Verdict.runtime?_eq_some.1 h).1
  have hsublist := sublist_of_filed hpath files
  rwa [List.map_id] at hsublist

theorem sublist_errors_of (h : ∀ a e, v a = .unreadable e → e.path = a.path) (files : List ArtifactFile) :
    ((of v files).errors.map (·.path)).Sublist (files.map (·.path)) :=
  sublist_of_filed (fun a e he => h a e (Verdict.error?_eq_some.1 he)) files

theorem touched_sublist_of (files : List ArtifactFile) :
    ((of v files).touched.map (·.1)).Sublist (of v files).upToDate := by
  unfold of
  induction files with
  | nil => exact .slnil
  | cons a files ih =>
    cases hv : v a with
    | upToDate =>
      simp only [List.filterMap_cons, hv, Verdict.touched?, Verdict.upToDate?]
      exact ih.cons _
    | touched mtime =>
      simp only [List.filterMap_cons, hv, Verdict.touched?, Verdict.upToDate?, List.map_cons]
      exact ih.cons_cons _
    | _ => simpa only [List.filterMap_cons, hv, Verdict.touched?, Verdict.upToDate?] using ih

/-- Every artifact is listed once. -/
theorem once_of (h : ∀ a e, v a = .unreadable e → e.path = a.path) (files : List ArtifactFile) :
    ((of v files).stale.map (·.artifact.path) ++ (of v files).upToDate ++ (of v files).runtimeSkipped ++
      (of v files).errors.map (·.path)).Perm (files.map (·.path)) := by
  refine List.perm_iff_count.2 fun path => ?_
  unfold of
  simp only [List.count_append]
  induction files with
  | nil => rfl
  | cons a files ih =>
    rw [List.map_cons, List.count_cons, ← ih]
    cases hv : v a with
    | unreadable e =>
      simp only [List.filterMap_cons, hv, Verdict.stale?, Verdict.upToDate?, Verdict.runtime?, Verdict.error?,
        List.map_cons, List.count_cons, h a e hv]
      omega
    | _ =>
      simp only [List.filterMap_cons, hv, Verdict.stale?, Verdict.upToDate?, Verdict.runtime?, Verdict.error?,
        List.map_cons, List.count_cons]
      omega

end UpdatePlan

/-! ## Plans of a store -/

namespace Update

variable {t : FileTree} {files : List ArtifactFile} {s : Store}

theorem verdict_unreadable {stamps : Stamps} {includeRuntime : Bool} {a : ArtifactFile} {e : FileError}
    (h : verdict t stamps includeRuntime a = .unreadable e) : e.path = a.path := by
  unfold verdict at h
  split at h
  · cases h
  · split at h
    · cases h
      rfl
    · cases h
    · split at h
      · cases h
      · split at h
        · cases h
          rfl
        · split at h <;> cases h

/-- **A plan is made for every index if all paths can be resolved, and accounts for every path that is
listed.** -/
theorem plan_accounts (h : s.contents.IsIndex) (hk : s.contents.Keyed) (hfiles : ∀ f ∈ files, Resolves t f)
    (includeRuntime : Bool) :
    ∃ p, plan t files includeRuntime s = (.ok p, s.start) ∧ p.Accounts t s.contents includeRuntime files := by
  let v := verdict t s.contents.artifactStamps includeRuntime
  have hplan : plan t files includeRuntime s = (.ok (.of v (distinct (located t files))), s.start) := by
    rw [plan_start h, mapM_locate_iff.2 ⟨hfiles, rfl⟩, ← foldl_addVerdict]
    rfl
  have hpaths := distinct_located t files
  refine ⟨_, hplan, ?_⟩
  constructor
  · exact nodup_eraseDups _
  · rw [← hpaths]
    exact UpdatePlan.once_of (fun _ _ => verdict_unreadable) _
  · rw [← hpaths]
    exact UpdatePlan.sublist_stale_of _
  · rw [← hpaths]
    exact UpdatePlan.sublist_upToDate_of _
  · rw [← hpaths]
    exact UpdatePlan.sublist_runtimeSkipped_of _
  · rw [← hpaths]
    exact UpdatePlan.sublist_errors_of (fun _ _ => verdict_unreadable) _
  · exact UpdatePlan.touched_sublist_of _
  · intro st hst
    exact mem_distinct_iff.1 (mem_stale_of.1 hst).1
  · intro path
    simp only [UpdatePlan.of, List.mem_filterMap, Verdict.runtime?_eq_some]
    constructor
    · rintro ⟨a, ha, rfl, hv⟩
      exact ⟨a, mem_distinct_iff.1 ha, by simpa using verdict_eq_runtime_iff.1 hv⟩
    · rintro ⟨a, ha, hrun⟩
      exact ⟨a, mem_distinct_of_mention? ha, (path_of_mention? ha).symm,
        verdict_eq_runtime_iff.2 (by simpa using hrun)⟩
  · intro path mtime isNew
    have hrecords (a : ArtifactFile) : v a = .stale mtime isNew ↔ _ := verdict_eq_stale_iff
    simp only [hk.lookup_eq_some_iff, Contents.lookup_eq_none_iff] at hrecords
    constructor
    · rintro ⟨st, hst, rfl, rfl, rfl⟩
      obtain ⟨hmem, hv⟩ := mem_stale_of.1 hst
      obtain ⟨hrun, hrest⟩ := (hrecords st.artifact).1 hv
      exact ⟨⟨st.artifact, mem_distinct_iff.1 hmem, by simpa using hrun⟩, hrest⟩
    · rintro ⟨⟨a, ha, hrun⟩, hrest⟩
      obtain rfl := path_of_mention? ha
      exact ⟨⟨a, mtime, isNew⟩, mem_stale_of.2 ⟨mem_distinct_of_mention? ha,
        (hrecords a).2 ⟨by simpa using hrun, hrest⟩⟩, rfl, rfl, rfl⟩

end Update

end Crossref
