/-
What a plan says of each artifact. Where no path is listed twice, every list of a
plan has its artifacts in order, each by its own verdict. A verdict goes by what
the artifact reads as and by its record; of the time it only matters whether it is
the recorded one.
-/
import Crossref.Proofs.Update.Failures

namespace Crossref

namespace FileTree

variable {t t' : FileTree} {path : String} {e : PathError}

section
variable {fault : PathFault}

theorem follow_fault {place : Place} {segment : String} (h : t.follow place segment = .error fault) :
    fault ≠ .isDirectory := by
  unfold follow at h
  split at h
  · cases h
  · obtain rfl := Except.error.inj h
    simp
  · obtain rfl := Except.error.inj h
    simp

theorem stretch_fault {last : Bool} {place : Place} {segments : List String}
    (h : t.stretch last place segments = .error fault) : fault ≠ .isDirectory := by
  induction segments generalizing place with
  | nil => cases h
  | cons segment segments ih =>
    unfold stretch at h
    split at h
    next fault' hfollow => exact follow_fault (hfollow.trans (congrArg _ (Except.error.inj h)))
    next =>
      split at h
      · exact ih h
      · split at h <;> cases h

theorem reach_fault {last : Bool} {budget : Nat} {place : Place} {segments : List String}
    (h : t.reach last budget place segments = .error fault) : fault ≠ .isDirectory := by
  induction budget generalizing place segments with
  | zero =>
    unfold reach at h
    split at h
    next hstretch => exact stretch_fault (hstretch.trans (congrArg _ (Except.error.inj h)))
    next => cases h
    next =>
      obtain rfl := Except.error.inj h
      simp
  | succ budget ih =>
    unfold reach at h
    split at h
    next hstretch => exact stretch_fault (hstretch.trans (congrArg _ (Except.error.inj h)))
    next => cases h
    next => exact ih h

/-- Where a path leads nowhere, no directory is to blame. -/
theorem find_fault {p : Path} (h : t.find p = .error fault) : fault ≠ .isDirectory := by
  unfold find at h
  cases hlocate : t.locate p with
  | error fault' =>
    rw [hlocate] at h
    obtain rfl := Except.error.inj h
    exact reach_fault hlocate
  | ok place =>
    rw [hlocate] at h
    simp only [bind, Except.bind] at h
    split at h
    · cases h
    · obtain rfl := Except.error.inj h
      simp

end

/-- A path that has no time leads nowhere, and so it cannot be read for the same reason. -/
theorem stat_eq_error_iff : t.stat path = .error e ↔ t.read path = .error e ∧ e.fault ≠ .isDirectory := by
  unfold stat read
  rcases hfind : t.find (.ofString path) with fault | ⟨place, node⟩
  · have hfault := find_fault hfind
    constructor
    · intro h
      obtain rfl := Except.error.inj h
      exact ⟨rfl, hfault⟩
    · intro h
      obtain rfl := Except.error.inj h.1
      rfl
  · cases node with
    | directory =>
      constructor
      · intro h
        cases h
      · rintro ⟨h, hfault⟩
        obtain rfl := Except.error.inj h
        exact absurd rfl hfault
    | bytes content mtime => simp
    | store contents mtime => simp

/-- A directory has the time zero. -/
theorem stat_of_directory (h : t.read path = .error e) (hfault : e.fault = .isDirectory) :
    t.stat path = .ok 0 := by
  unfold read at h
  unfold stat
  rcases hfind : t.find (.ofString path) with fault | ⟨place, node⟩ <;> rw [hfind] at h
  · obtain rfl := Except.error.inj h
    exact absurd hfault (find_fault hfind)
  · cases node with
    | directory => rfl
    | bytes content mtime => cases h
    | store contents mtime => cases h

/-- Paths that read the same have a time in both trees or in none. -/
theorem stat_of_read_eq (hread : t'.read path = t.read path) {mtime : Int} (h : t.stat path = .ok mtime) :
    ∃ mtime', t'.stat path = .ok mtime' := by
  cases hstat : t'.stat path with
  | ok mtime' => exact ⟨mtime', rfl⟩
  | error e =>
    rw [stat_eq_error_iff, hread, ← stat_eq_error_iff, h] at hstat
    cases hstat

end FileTree

/-! ## Records as a plan finds them -/

namespace Contents

/-- What the schema of a store enforces on files and artifacts: a path and an id belong to one file, ids come
from the counter, and a file has one record. -/
structure Keyed (c : Contents) : Prop where
  filePaths : (c.files.map (·.path)).Nodup
  fileIds : (c.files.map (·.id)).Nodup
  fileRange : ∀ f ∈ c.files, f.id ≤ c.lastFile
  artifacts : (c.artifacts.map (·.fileId)).Nodup

variable {c : Contents} {path : String} {mtime : Int} {checksum : String}

theorem mem_artifactStamps : (path, mtime, checksum) ∈ c.artifactStamps ↔ c.Recorded path mtime checksum := by
  simp only [artifactStamps, List.mem_mergeSort, List.mem_filterMap, Option.map_eq_some_iff, Prod.mk.injEq,
    ↓existsAndEq, true_and]
  exact Iff.rfl

theorem Reached.keyed (h : c.Reached) : c.Keyed := by
  obtain ⟨L, batches, hL, hm⟩ := h.merges
  have hpaths : (c.artifacts.map (·.fileId)).map c.filePath? = (L.artifacts.map (·.path)).map some := by
    rw [List.map_map, List.map_map, ← List.forall₂_eq_eq_eq, List.forall₂_map_left_iff, List.forall₂_map_right_iff]
    exact hm.artifacts.imp fun _ _ hr => hr.path
  refine ⟨hm.sound.filePaths, hm.sound.fileIds, fun f hf => (hm.sound.fileRange f hf).2, ?_⟩
  refine List.Nodup.of_map c.filePath? ?_
  rw [hpaths]
  exact hL.keyed.artifacts.map fun _ _ => Option.some.inj

theorem Keyed.path_inj (h : c.Keyed) {id id' : Int} (hid : c.filePath? id = some path)
    (hid' : c.filePath? id' = some path) : id = id' := by
  obtain ⟨f, hf, rfl, hpath⟩ := mem_of_filePath? hid
  obtain ⟨f', hf', rfl, hpath'⟩ := mem_of_filePath? hid'
  rw [List.inj_on_of_nodup_map h.filePaths hf hf' (hpath.trans hpath'.symm)]

theorem Keyed.lookup_eq_some_iff (h : c.Keyed) :
    c.artifactStamps.lookup path = some (mtime, checksum) ↔ c.Recorded path mtime checksum := by
  refine ⟨recorded_of_lookup, fun hr => ?_⟩
  cases hlookup : c.artifactStamps.lookup path with
  | none => simpa using List.lookup_eq_none_iff.1 hlookup _ (mem_artifactStamps.2 hr)
  | some stamp =>
    obtain ⟨a, ha, hpath, rfl, rfl⟩ := hr
    obtain ⟨b, hb, hpath', hmtime, hchecksum⟩ := recorded_of_lookup hlookup
    obtain rfl := List.inj_on_of_nodup_map h.artifacts ha hb (h.path_inj hpath hpath')
    rw [hmtime, hchecksum]

theorem Reached.lookup_of_recorded (h : c.Reached) (hr : c.Recorded path mtime checksum) :
    c.artifactStamps.lookup path = some (mtime, checksum) :=
  h.keyed.lookup_eq_some_iff.2 hr

theorem lookup_of_unrecorded (h : ¬c.Indexed path) : c.artifactStamps.lookup path = none := by
  cases hlookup : c.artifactStamps.lookup path with
  | none => rfl
  | some stamp =>
    obtain ⟨a, ha, hpath, -⟩ := recorded_of_lookup hlookup
    exact absurd ⟨a, ha, hpath⟩ h

theorem lookup_eq_none_iff : c.artifactStamps.lookup path = none ↔ ¬c.Indexed path := by
  refine ⟨fun hnone hindexed => ?_, lookup_of_unrecorded⟩
  obtain ⟨a, ha, hpath⟩ := hindexed
  simpa using List.lookup_eq_none_iff.1 hnone _ (mem_artifactStamps.2 ⟨a, ha, hpath, rfl, rfl⟩)

/-- Of an artifact without a record nothing is in the store. -/
theorem Reached.silent (h : c.Reached) (hnone : ¬c.Indexed path) : c.Silent path := by
  obtain ⟨L, batches, hL, hm⟩ := h.merges
  exact hm.silent hL.recorded fun hrec => hnone (hm.indexed_iff.2 hrec)

end Contents

/-! ## Plans, list by list -/

namespace Verdict

def error? : Verdict → Option FileError
  | .unreadable e => some e
  | _ => none

def stale? (a : ArtifactFile) : Verdict → Option StaleArtifact
  | .stale mtime isNew => some ⟨a, mtime, isNew⟩
  | _ => none

def touched? (path : String) : Verdict → Option (String × Int)
  | .touched mtime => some (path, mtime)
  | _ => none

def upToDate? (path : String) : Verdict → Option String
  | .upToDate | .touched _ => some path
  | _ => none

def runtime? (path : String) : Verdict → Option String
  | .runtime => some path
  | _ => none

theorem stale?_eq_some {a : ArtifactFile} {v : Verdict} {st : StaleArtifact} :
    v.stale? a = some st ↔ st.artifact = a ∧ v = .stale st.mtime st.isNew := by
  cases v with
  | stale mtime isNew =>
    obtain ⟨artifact, mtime', isNew'⟩ := st
    simp [stale?, eq_comm]
  | _ => simp [stale?]

theorem touched?_eq_some {path : String} {v : Verdict} {p : String × Int} :
    v.touched? path = some p ↔ p.1 = path ∧ v = .touched p.2 := by
  cases v with
  | touched mtime =>
    obtain ⟨path', mtime'⟩ := p
    simp [touched?, eq_comm]
  | _ => simp [touched?]

theorem upToDate?_eq_some {path p : String} {v : Verdict} :
    v.upToDate? path = some p ↔ p = path ∧ (v = .upToDate ∨ ∃ mtime, v = .touched mtime) := by
  cases v with
  | upToDate => simp [upToDate?, eq_comm]
  | touched mtime => simp [upToDate?, eq_comm]
  | _ => simp [upToDate?]

theorem runtime?_eq_some {path p : String} {v : Verdict} : v.runtime? path = some p ↔ p = path ∧ v = .runtime := by
  cases v with
  | runtime => simp [runtime?, eq_comm]
  | _ => simp [runtime?]

theorem error?_eq_some {e : FileError} {v : Verdict} : v.error? = some e ↔ v = .unreadable e := by
  cases v with
  | unreadable e' => simp [error?]
  | _ => simp [error?]

end Verdict

/-- The plan that lists each artifact by its verdict. -/
def UpdatePlan.of (v : ArtifactFile → Verdict) (files : List ArtifactFile) : UpdatePlan where
  stale := files.filterMap fun a => (v a).stale? a
  upToDate := files.filterMap fun a => (v a).upToDate? a.path
  touched := files.filterMap fun a => (v a).touched? a.path
  runtimeSkipped := files.filterMap fun a => (v a).runtime? a.path
  errors := files.filterMap fun a => (v a).error?

namespace Update

variable {t t' : FileTree} {files : List ArtifactFile}

theorem foldl_addVerdict (v : ArtifactFile → Verdict) (files : List ArtifactFile) :
    files.foldl (fun plan a => addVerdict plan a (v a)) {} = .of v files := by
  induction files using List.reverseRecOn with
  | nil => rfl
  | append_singleton files a ih =>
    rw [List.foldl_append, ih]
    unfold UpdatePlan.of
    simp only [List.foldl_cons, List.foldl_nil, List.filterMap_append]
    cases hv : v a <;>
      simp [addVerdict, hv, Verdict.stale?, Verdict.upToDate?, Verdict.touched?, Verdict.runtime?,
        Verdict.error?]

theorem distinct_of_nodup (h : (files.map (·.path)).Nodup) : distinct files = files := by
  induction files using List.reverseRecOn with
  | nil => rfl
  | append_singleton files f ih =>
    rw [List.map_append, List.nodup_append] at h
    obtain ⟨hfiles, -, hnew⟩ := h
    have hany : files.any (·.path = f.path) = false := by
      rw [List.any_eq_false]
      intro g hg heq
      exact hnew _ (List.mem_map_of_mem hg) _ (by simp) (of_decide_eq_true heq)
    have hfold := ih hfiles
    unfold distinct at hfold ⊢
    rw [List.foldl_append, hfold, List.foldl_cons, List.foldl_nil, hany]
    rfl

theorem planFor_of_nodup (h : (files.map (·.path)).Nodup) (stamps : Stamps) (includeRuntime : Bool) :
    planFor t stamps includeRuntime files = .of (verdict t stamps includeRuntime) files := by
  unfold planFor
  rw [distinct_of_nodup h, foldl_addVerdict]

theorem mem_stale_of {v : ArtifactFile → Verdict} {st : StaleArtifact} :
    st ∈ (UpdatePlan.of v files).stale ↔
      st.artifact ∈ files ∧ v st.artifact = .stale st.mtime st.isNew := by
  simp only [UpdatePlan.of, List.mem_filterMap, Verdict.stale?_eq_some]
  constructor
  · rintro ⟨a, ha, rfl, hv⟩
    exact ⟨ha, hv⟩
  · rintro ⟨ha, hv⟩
    exact ⟨st.artifact, ha, rfl, hv⟩

theorem mem_touched_of {v : ArtifactFile → Verdict} {q : String × Int} :
    q ∈ (UpdatePlan.of v files).touched ↔ ∃ a ∈ files, q.1 = a.path ∧ v a = .touched q.2 := by
  simp only [UpdatePlan.of, List.mem_filterMap, Verdict.touched?_eq_some]

theorem mem_upToDate_of {v : ArtifactFile → Verdict} {path : String} :
    path ∈ (UpdatePlan.of v files).upToDate ↔
      ∃ a ∈ files, path = a.path ∧ (v a = .upToDate ∨ ∃ mtime, v a = .touched mtime) := by
  simp only [UpdatePlan.of, List.mem_filterMap, Verdict.upToDate?_eq_some]

/-- An artifact is skipped for being a runtime one, and for nothing else. -/
theorem verdict_eq_runtime_iff {stamps : Stamps} {includeRuntime : Bool} {a : ArtifactFile} :
    verdict t stamps includeRuntime a = .runtime ↔ (a.runtime && !includeRuntime) = true := by
  unfold verdict
  split
  next h => simp [h]
  next h =>
    refine iff_of_false ?_ h
    split
    · simp
    · simp
    · split
      · simp
      · split
        · simp
        · split <;> simp

section
variable {stamps : Stamps} {includeRuntime : Bool} {a : ArtifactFile}
  (hrun : (a.runtime && !includeRuntime) = false)
include hrun

theorem verdict_of_missing {e : PathError} (hstat : t.stat a.path = .error e) :
    verdict t stamps includeRuntime a = .unreadable (.ofPath a.path e) := by
  unfold verdict
  rw [hrun, hstat]
  rfl

theorem verdict_of_new {mtime : Int} (hstat : t.stat a.path = .ok mtime)
    (hnone : stamps.lookup a.path = none) : verdict t stamps includeRuntime a = .stale mtime true := by
  unfold verdict
  rw [hrun, hstat, hnone]
  rfl

variable {mtime recorded : Int} {checksum : String} (hstat : t.stat a.path = .ok mtime)
  (hrecorded : stamps.lookup a.path = some (recorded, checksum))
include hstat hrecorded

theorem verdict_of_same_time (htime : mtime = recorded) :
    verdict t stamps includeRuntime a = .upToDate := by
  unfold verdict
  rw [hrun, hstat, hrecorded]
  exact if_pos htime

theorem verdict_of_same_content (htime : mtime ≠ recorded) {content : Text.Bytes}
    (hread : t.read a.path = .ok content) (hchecksum : Digest.checksum content = checksum) :
    verdict t stamps includeRuntime a = .touched mtime := by
  unfold verdict
  rw [hrun, hstat, hrecorded, hread]
  exact (if_neg htime).trans (if_pos hchecksum)

theorem verdict_of_unread (htime : mtime ≠ recorded) {e : PathError} (hread : t.read a.path = .error e) :
    verdict t stamps includeRuntime a = .unreadable (.ofPath a.path e) := by
  unfold verdict
  rw [hrun, hstat, hrecorded, hread]
  exact if_neg htime

end

/-- Where no path is listed twice, a plan is made if every path can be located, and lists each
artifact by its verdict. -/
theorem plan_iff {s : Store} (hs : s.transaction = .idle) (hc : s.contents.Reached) {includeRuntime : Bool}
    (hfiles : ((located t files).map (·.path)).Nodup) {p : UpdatePlan} :
    plan t files includeRuntime s = (.ok p, s) ↔
      (∀ f ∈ files, Resolves t f) ∧
        p = .of (verdict t s.contents.artifactStamps includeRuntime) (located t files) := by
  rw [plan_apply hs hc.isIndex, ← planFor_of_nodup hfiles]
  cases hlocated : files.mapM (locate t) with
  | error e =>
    constructor
    · intro h
      cases (Prod.mk.inj h).1
    · intro h
      cases hlocated.symm.trans (mapM_locate_iff.2 ⟨h.1, rfl⟩)
  | ok found =>
    obtain ⟨hplain, rfl⟩ := mapM_locate_iff.1 hlocated
    constructor
    · intro h
      exact ⟨hplain, (Except.ok.inj (Prod.mk.inj h).1).symm⟩
    · intro h
      rw [h.2]
      rfl

end Update

end Crossref
