/-
What an update leaves of each artifact that it looked at. An artifact is settled, under
the checksum of what it holds, or refused, without a record, or it cannot be read for
its verdict. That an artifact with its recorded time holds what was recorded has to be
given: a plan does not look into it. As long as the artifact reads the same, its next
verdict leads to the same errors, and nothing but what was refused is stale again.
-/
import Crossref.Proofs.Update.Verdicts

namespace Crossref

open StoreM StoreM.Ends

/-! ## Batches of an update that went well -/

namespace Update

variable {t : FileTree} {cancel : Nat → Bool} {p : UpdatePlan} {b : ReadBatch} {s s₁ : Store} {now : Int}
  {stats : UpdateStats} {progress : List Progress}

theorem readStale_of_outcomes {stale : List StaleArtifact}
    (h : ∀ st ∈ untilCancelled cancel 0 stale, ∃ outcome, readArtifact t st.artifact.path = .ok outcome) :
    ∃ b, readStale t cancel stale = .ok b ∧
      b.parsed = (untilCancelled cancel 0 stale).filterMap (unit? t) ∧
      b.failed = (untilCancelled cancel 0 stale).filterMap (refusal? t) ∧
      b.cancelled + (untilCancelled cancel 0 stale).length = stale.length :=
  readFrom_outcomes h

theorem readStale_outcomes {stale : List StaleArtifact} (h : readStale t cancel stale = .ok b) :
    (∀ st ∈ untilCancelled cancel 0 stale, ∃ outcome, readArtifact t st.artifact.path = .ok outcome) ∧
      b.parsed = (untilCancelled cancel 0 stale).filterMap (unit? t) ∧
      b.failed = (untilCancelled cancel 0 stale).filterMap (refusal? t) ∧
      b.cancelled + (untilCancelled cancel 0 stale).length = stale.length := by
  have hread : ∀ st ∈ untilCancelled cancel 0 stale,
      ∃ outcome, readArtifact t st.artifact.path = .ok outcome := by
    intro st hst
    cases hout : readArtifact t st.artifact.path with
    | ok outcome => exact ⟨outcome, rfl⟩
    | error e =>
      obtain ⟨e', he⟩ : ∃ e', readStale t cancel stale = .error e' := readFrom_breaks hout hst
      cases h.symm.trans he
  obtain ⟨b', hb, hlists⟩ := readStale_of_outcomes hread
  obtain rfl : b' = b := Except.ok.inj (hb.symm.trans h)
  exact ⟨hread, hlists⟩

/-- What is not cancelled attempts everything. -/
theorem untilCancelled_all {stale : List StaleArtifact}
    (hcount : (untilCancelled cancel 0 stale).length = stale.length) :
    untilCancelled cancel 0 stale = stale :=
  (untilCancelled_sublist cancel 0 stale).eq_of_length hcount

theorem apply_ok (h : apply t cancel now p s = (.ok (stats, progress), s₁)) :
    ∃ b, readStale t cancel p.stale = .ok b ∧ merge p b now s = (.ok stats, s₁) := by
  cases hread : readStale t cancel p.stale with
  | error e =>
    rw [apply_of_break hread] at h
    cases h
  | ok b =>
    rw [apply_of_read hread] at h
    rcases hmerge : merge p b now s with ⟨e | stats', s'⟩ <;> rw [hmerge] at h
    · cases h
    · obtain ⟨hanswer, rfl⟩ := Prod.mk.inj h
      obtain ⟨rfl, -⟩ := Prod.mk.inj (Except.ok.inj hanswer)
      exact ⟨b, rfl, hmerge⟩

theorem merge_answer (hs : s.Idle) (hc : s.contents.Reached) (hread : readStale t cancel p.stale = .ok b)
    (h : merge p b now s = (.ok stats, s₁)) : ∃ counts, stats = answer p b counts s₁.contents.stats := by
  obtain ⟨L, hm⟩ := hc.mirrors
  rw [merge_apply hs hm (readStale_named hread)] at h
  split at h
  next counts s' _ =>
    obtain ⟨hanswer, rfl⟩ := Prod.mk.inj h
    exact ⟨counts, (Except.ok.inj hanswer).symm⟩
  next => cases h

end Update

/-! ## Records after a merge -/

/-- What a merge leaves of each artifact. -/
structure ReadBatch.Lands (b : ReadBatch) (touched : List (String × Int)) (c c₁ : Contents) : Prop where
  settled : c₁.Settled
  parsed : ∀ q ∈ b.parsed, c₁.Recorded q.1.artifact.path q.1.mtime q.2.checksum
  failed : ∀ q ∈ b.failed, ¬c₁.Indexed q.1.artifact.path
  others : ∀ {path mtime checksum}, path ∉ b.paths → c.Recorded path mtime checksum →
    ∃ mtime', c₁.Recorded path mtime' checksum ∧ (mtime' = mtime ∨ (path, mtime') ∈ touched)

namespace Update

variable {t t' : FileTree} {cancel : Nat → Bool} {p : UpdatePlan} {b : ReadBatch} {s s₁ : Store} {now : Int}
  {stats : UpdateStats} {c : Contents} {files : List ArtifactFile} {includeRuntime : Bool}

theorem merge_lands (hs : s.Idle) (hc : s.contents.Reached) (hread : readStale t cancel p.stale = .ok b)
    (hd : b.paths.Nodup) (hok : merge p b now s = (.ok stats, s₁)) :
    b.Lands p.touched s.contents s₁.contents := by
  obtain ⟨L, batches, hL, hm⟩ := hc.merges
  have hrun := merge_runs hs hm (readStale_named hread) p now
  unfold Runs at hrun
  rw [hok] at hrun
  obtain ⟨-, hm₁, hsettled, -⟩ := hrun
  refine ⟨hsettled, fun q hq => ?_, fun q hq hindexed => ?_, fun hpath hr => ?_⟩
  · exact hm₁.recorded_iff.2 ⟨_, Ledger.mem_artifacts_of_parsed hd hq, rfl, rfl, rfl⟩
  · exact Ledger.not_records_of_failed hd hq (hm₁.indexed_iff.1 hindexed)
  · obtain ⟨f, hf, rfl, rfl, rfl⟩ := hm.recorded_iff.1 hr
    obtain ⟨g, hg, hgpath, hsum, htime⟩ := Ledger.record_kept_of_merge hL.keyed hf hpath
    exact ⟨g.mtime, hm₁.recorded_iff.2 ⟨g, hg, hgpath, rfl, hsum⟩, htime⟩

/-- An update that went well reports what its plan could not read and what was refused, and leaves what
its merge left. -/
theorem apply_lands (hs : s.Idle) (hc : s.contents.Reached) (hd : p.Distinct)
    (h : apply t cancel now p s = (.ok (stats, progress), s₁)) :
    ∃ b, readStale t cancel p.stale = .ok b ∧ b.Lands p.touched s.contents s₁.contents ∧
      stats.cancelled = b.cancelled ∧ stats.errors = p.errors ++ b.failed.map (·.2) := by
  obtain ⟨b, hread, hmerge⟩ := apply_ok h
  obtain ⟨counts, rfl⟩ := merge_answer hs hc hread hmerge
  exact ⟨b, hread, merge_lands hs hc hread (readStale_distinct hread hd) hmerge, rfl, rfl⟩

/-! ## What an artifact is left as -/

/-- What stands of an artifact after an update that looked at it, with the error of its plan and
the error of its reading. -/
inductive Standing (t : FileTree) (c : Contents) (path : String) : Option FileError → Option FileError → Prop
  | settled {content : Text.Bytes} {mtime : Int} (read : t.read path = .ok content)
      (recorded : c.Recorded path mtime (Digest.checksum content)) : Standing t c path none none
  | refused {mtime : Int} {e : FileError} (stat : t.stat path = .ok mtime)
      (read : readArtifact t path = .ok (.error e)) (unrecorded : ¬c.Indexed path) :
      Standing t c path none (some e)
  | missing {e : PathError} (stat : t.stat path = .error e) :
      Standing t c path (some (.ofPath path e)) none
  | directory {e : PathError} {mtime : Int} {checksum : String} (read : t.read path = .error e)
      (fault : e.fault = .isDirectory) (recorded : c.Recorded path mtime checksum) (time : mtime ≠ 0) :
      Standing t c path (some (.ofPath path e)) none

/-- Why an artifact is refused that is stale by its verdict. -/
def refused? (t : FileTree) (a : ArtifactFile) (v : Verdict) : Option FileError :=
  (v.stale? a).bind fun st => (refusal? t st).map (·.2)

theorem failures_of (v : ArtifactFile → Verdict) :
    ((UpdatePlan.of v files).stale.filterMap (refusal? t)).map (·.2) =
      files.filterMap fun a => refused? t a (v a) := by
  simp only [UpdatePlan.of, List.filterMap_filterMap, List.map_filterMap]
  refine List.filterMap_congr fun a _ => ?_
  unfold refused?
  cases (v a).stale? a <;> rfl

/-- What an artifact that cannot be read for its verdict is. -/
theorem unreadable_grounds {a : ArtifactFile} {err : FileError}
    (h : verdict t c.artifactStamps includeRuntime a = .unreadable err) :
    ∃ e, err = .ofPath a.path e ∧ (t.stat a.path = .error e ∨
      t.read a.path = .error e ∧ e.fault = .isDirectory ∧
        ∃ mtime checksum, c.Recorded a.path mtime checksum ∧ mtime ≠ 0) := by
  unfold verdict at h
  split at h
  · cases h
  · split at h
    next e hstat =>
      obtain rfl := Verdict.unreadable.inj h
      exact ⟨e, rfl, .inl hstat⟩
    next => cases h
    next mtime recorded checksum hstat hlookup =>
      split at h
      · cases h
      next hne =>
        split at h
        next e hread =>
          obtain rfl := Verdict.unreadable.inj h
          have hfault : e.fault = .isDirectory := by
            by_contra hfault
            cases hstat.symm.trans (FileTree.stat_eq_error_iff.2 ⟨hread, hfault⟩)
          have hzero : mtime = 0 :=
            Except.ok.inj (hstat.symm.trans (FileTree.stat_of_directory hread hfault))
          refine ⟨e, rfl, .inr ⟨hread, hfault, recorded, checksum, Contents.recorded_of_lookup hlookup, ?_⟩⟩
          rintro rfl
          exact hne hzero
        next => split at h <;> cases h

/-- A record with the time that the artifact has now is one of what the artifact holds. -/
def Trusts (t : FileTree) (c : Contents) (path : String) : Prop :=
  ∀ mtime checksum, c.Recorded path mtime checksum → t.stat path = .ok mtime →
    ∃ content, t.read path = .ok content ∧ checksum = Digest.checksum content

section
variable {v : ArtifactFile → Verdict} {found : List ArtifactFile}
  (hfound : (found.map (·.path)).Nodup) {a : ArtifactFile} (ha : a ∈ found)
include hfound ha

theorem stale_of_path (hin : a.path ∈ (UpdatePlan.of v found).stale.map (·.artifact.path)) :
    ∃ mtime isNew, v a = .stale mtime isNew := by
  obtain ⟨st, hst, hpath⟩ := List.mem_map.1 hin
  obtain ⟨hmem, hv⟩ := mem_stale_of.1 hst
  obtain rfl := List.inj_on_of_nodup_map hfound hmem ha hpath
  exact ⟨st.mtime, st.isNew, hv⟩

theorem touched_of_path {mtime : Int} (hin : (a.path, mtime) ∈ (UpdatePlan.of v found).touched) :
    v a = .touched mtime := by
  obtain ⟨a', hmem, hpath, hv⟩ := mem_touched_of.1 hin
  obtain rfl := List.inj_on_of_nodup_map hfound hmem ha hpath.symm
  exact hv

/-- The record of an artifact that is not stale is kept; its time may be the new one. -/
theorem record_kept (hread : readStale t cancel (UpdatePlan.of v found).stale = .ok b) {c₁ : Contents}
    (hlands : b.Lands (UpdatePlan.of v found).touched c c₁)
    (hv : ∀ mtime isNew, v a ≠ .stale mtime isNew) {mtime : Int} {checksum : String}
    (hr : c.Recorded a.path mtime checksum) :
    ∃ mtime', c₁.Recorded a.path mtime' checksum ∧ (mtime' = mtime ∨ v a = .touched mtime') := by
  have hout : a.path ∉ b.paths := by
    intro hin
    obtain ⟨left, hperm⟩ := (readFrom_ok hread).2
    have hstale := (hperm.map (·.artifact.path)).subset
      (List.map_append ▸ List.mem_append_left _ hin)
    obtain ⟨mtime, isNew, hst⟩ := stale_of_path hfound ha hstale
    exact hv mtime isNew hst
  obtain ⟨mtime', hr', htime⟩ := hlands.others hout hr
  exact ⟨mtime', hr', htime.imp id (touched_of_path hfound ha)⟩

omit hfound in
/-- A stale artifact was read, and is settled or refused. -/
theorem standing_stale (hread : readStale t cancel (UpdatePlan.of v found).stale = .ok b)
    (hcancelled : b.cancelled = 0) {c₁ : Contents} (hlands : b.Lands (UpdatePlan.of v found).touched c c₁)
    {mtime : Int} {isNew : Bool} (hv : v a = .stale mtime isNew) (hstat : t.stat a.path = .ok mtime) :
    Standing t c₁ a.path none (refused? t a (.stale mtime isNew)) := by
  obtain ⟨houtcomes, hparsed, hfailed, hcount⟩ := readStale_outcomes hread
  rw [untilCancelled_all (by omega)] at houtcomes hparsed hfailed
  have hst : (⟨a, mtime, isNew⟩ : StaleArtifact) ∈ (UpdatePlan.of v found).stale :=
    mem_stale_of.2 ⟨ha, hv⟩
  obtain ⟨outcome, hout⟩ := houtcomes _ hst
  cases outcome with
  | ok u =>
    have hmem : (⟨a, mtime, isNew⟩, u) ∈ b.parsed :=
      hparsed ▸ List.mem_filterMap.2 ⟨_, hst, unit?_eq_some.2 ⟨rfl, hout⟩⟩
    obtain ⟨content, hcontent, hsum⟩ := readArtifact_checksum hout
    have hnone : refused? t a (.stale mtime isNew) = none := by
      simp [refused?, Verdict.stale?, refusal?, hout]
    rw [hnone]
    exact .settled hcontent (hsum ▸ hlands.parsed _ hmem)
  | error e =>
    have hmem : (⟨a, mtime, isNew⟩, e) ∈ b.failed :=
      hfailed ▸ List.mem_filterMap.2 ⟨_, hst, refusal?_eq_some.2 ⟨rfl, hout⟩⟩
    have hsome : refused? t a (.stale mtime isNew) = some e := by
      simp [refused?, Verdict.stale?, refusal?, hout]
    rw [hsome]
    exact .refused hstat hout (hlands.failed _ hmem)

end

/-- **Every artifact that an update looks at is left settled, refused or unreadable.** -/
theorem standing {found : List ArtifactFile} (hfound : (found.map (·.path)).Nodup)
    (hp : p = .of (verdict t c.artifactStamps includeRuntime) found)
    (hread : readStale t cancel p.stale = .ok b) (hcancelled : b.cancelled = 0) {c₁ : Contents}
    (hlands : b.Lands p.touched c c₁) {a : ArtifactFile} (ha : a ∈ found)
    (hrun : (a.runtime && !includeRuntime) = false) (htrust : Trusts t c a.path) :
    Standing t c₁ a.path (verdict t c.artifactStamps includeRuntime a).error?
      (refused? t a (verdict t c.artifactStamps includeRuntime a)) := by
  subst hp
  have hgrounds := verdict_grounds t c includeRuntime a
  cases hv : verdict t c.artifactStamps includeRuntime a with
  | runtime =>
    rw [verdict_eq_runtime_iff, hrun] at hv
    cases hv
  | unreadable err =>
    obtain ⟨e, rfl, hstat | ⟨hunread, hfault, mtime, checksum, hr, hne⟩⟩ := unreadable_grounds hv
    · exact .missing hstat
    · obtain ⟨mtime', hr', rfl | htouched⟩ := record_kept hfound ha hread hlands (by simp [hv]) hr
      · exact .directory hunread hfault hr' hne
      · cases hv.symm.trans htouched
  | upToDate =>
    rw [hv] at hgrounds
    obtain ⟨mtime, checksum, hstat, hr⟩ := hgrounds
    obtain ⟨content, hcontent, rfl⟩ := htrust mtime checksum hr hstat
    obtain ⟨mtime', hr', -⟩ := record_kept hfound ha hread hlands (by simp [hv]) hr
    exact .settled hcontent hr'
  | touched mtime =>
    rw [hv] at hgrounds
    obtain ⟨recorded, content, hopens, hr⟩ := hgrounds
    obtain ⟨mtime', hr', -⟩ := record_kept hfound ha hread hlands (by simp [hv]) hr
    exact .settled hopens.read hr'
  | stale mtime isNew =>
    rw [hv] at hgrounds
    exact standing_stale ha hread hcancelled hlands hv hgrounds

/-! ## The verdicts of the next plan -/

theorem readArtifact_congr {path : String} (hread : t'.read path = t.read path) :
    readArtifact t' path = readArtifact t path := by
  unfold readArtifact
  rw [hread]

/-- **As long as the artifact reads the same, its next verdict leads to the same errors**, and only
what was refused is stale. -/
theorem Standing.again {a : ArtifactFile} {planned failed : Option FileError}
    (h : Standing t c a.path planned failed) (hc : c.Reached) (hread : t'.read a.path = t.read a.path)
    (hrun : (a.runtime && !includeRuntime) = false) :
    let v := verdict t' c.artifactStamps includeRuntime a
    v.error? = planned ∧ refused? t' a v = failed ∧
      ∀ mtime isNew, v = .stale mtime isNew → ∃ e, failed = some e ∧
        readArtifact t' a.path = .ok (.error e) ∧ ¬c.Indexed a.path := by
  intro v
  cases h with
  | @settled content mtime hcontent hr =>
    obtain ⟨mtime', hopens⟩ := FileTree.opens_of_read (hread.trans hcontent)
    have hlookup := hc.lookup_of_recorded hr
    have hv : v = .upToDate ∨ v = .touched mtime' := by
      by_cases htime : mtime' = mtime
      · exact .inl (verdict_of_same_time hrun hopens.stat hlookup htime)
      · exact .inr (verdict_of_same_content hrun hopens.stat hlookup htime hopens.read rfl)
    rcases hv with hv | hv <;> rw [hv] <;> exact ⟨rfl, rfl, fun _ _ hstale => by cases hstale⟩
  | @refused mtime e hstat hrefused hnone =>
    obtain ⟨mtime', hstat'⟩ := FileTree.stat_of_read_eq hread hstat
    have hv : v = .stale mtime' true :=
      verdict_of_new hrun hstat' (Contents.lookup_of_unrecorded hnone)
    have hrefused' : readArtifact t' a.path = .ok (.error e) := (readArtifact_congr hread).trans hrefused
    rw [hv]
    refine ⟨rfl, ?_, fun _ _ _ => ⟨e, rfl, hrefused', hnone⟩⟩
    simp [refused?, Verdict.stale?, refusal?, hrefused']
  | @missing e hstat =>
    have hstat' : t'.stat a.path = .error e := by
      rwa [FileTree.stat_eq_error_iff, hread, ← FileTree.stat_eq_error_iff]
    have hv : v = .unreadable (.ofPath a.path e) := verdict_of_missing hrun hstat'
    rw [hv]
    exact ⟨rfl, rfl, fun _ _ hstale => by cases hstale⟩
  | @directory e mtime checksum herror hfault hr hne =>
    have herror' := hread.trans herror
    have hv : v = .unreadable (.ofPath a.path e) :=
      verdict_of_unread hrun (FileTree.stat_of_directory herror' hfault) (hc.lookup_of_recorded hr)
        (Ne.symm hne) herror'
    rw [hv]
    exact ⟨rfl, rfl, fun _ _ hstale => by cases hstale⟩

/-- The next verdict of the artifact leads to the same errors, and the artifact is stale only if it was
refused and left no record. -/
structure Repeats (t t' : FileTree) (c : Contents) (a : ArtifactFile) (v v' : Verdict) : Prop where
  planned : v'.error? = v.error?
  refused : refused? t' a v' = refused? t a v
  stale : ∀ mtime isNew, v' = .stale mtime isNew → ∃ e, refused? t a v = some e ∧
    readArtifact t' a.path = .ok (.error e) ∧ ¬c.Indexed a.path

theorem repeats {found : List ArtifactFile} (hfound : (found.map (·.path)).Nodup)
    (hp : p = .of (verdict t c.artifactStamps includeRuntime) found)
    (hread : readStale t cancel p.stale = .ok b) (hcancelled : b.cancelled = 0) {c₁ : Contents}
    (hlands : b.Lands p.touched c c₁) (hc₁ : c₁.Reached) {a : ArtifactFile} (ha : a ∈ found)
    (htrust : Trusts t c a.path) (hsame : t'.read a.path = t.read a.path) :
    Repeats t t' c₁ a (verdict t c.artifactStamps includeRuntime a)
      (verdict t' c₁.artifactStamps includeRuntime a) := by
  cases hrun : a.runtime && !includeRuntime with
  | true =>
    rw [verdict_eq_runtime_iff.2 hrun, verdict_eq_runtime_iff.2 hrun]
    exact ⟨rfl, rfl, fun _ _ hstale => by cases hstale⟩
  | false =>
    obtain ⟨hplanned, hrefused, hstale⟩ :=
      (standing hfound hp hread hcancelled hlands ha hrun htrust).again hc₁ hsame hrun
    exact ⟨hplanned, hrefused, hstale⟩

/-! ## Errors of some of the files -/

/-- A refusal names the artifact. -/
theorem readArtifact_refusal {path : String} {e : FileError} (h : readArtifact t path = .ok (.error e)) :
    e.path = path := by
  cases hread : t.read path with
  | ok content => exact (refusal_of_opens hread h).1
  | error fault =>
    unfold readArtifact at h
    rw [hread] at h
    obtain rfl := Except.error.inj (Except.ok.inj h)
    rfl

theorem error_path {stamps : Stamps} {a : ArtifactFile} {e : FileError}
    (h : (verdict t stamps includeRuntime a).error? = some e) : e.path = a.path := by
  have hv : verdict t stamps includeRuntime a = .unreadable e := by
    cases hv : verdict t stamps includeRuntime a <;> rw [hv] at h <;> cases h
    rfl
  unfold verdict at hv
  split at hv
  · cases hv
  · split at hv
    · obtain rfl := Verdict.unreadable.inj hv
      rfl
    · cases hv
    · split at hv
      · cases hv
      · split at hv
        · obtain rfl := Verdict.unreadable.inj hv
          rfl
        · split at hv <;> cases hv

theorem refused_path {a : ArtifactFile} {v : Verdict} {e : FileError} (h : refused? t a v = some e) :
    e.path = a.path := by
  obtain ⟨st, hst, hrefusal⟩ := Option.bind_eq_some_iff.1 h
  obtain ⟨q, hq, rfl⟩ := Option.map_eq_some_iff.1 hrefusal
  rw [← (Verdict.stale?_eq_some.1 hst).1]
  exact readArtifact_refusal (refusal?_eq_some.1 hq).2

/-- The errors of an update that is not cancelled, file by file. -/
theorem errors_by_file {v : ArtifactFile → Verdict}
    (hread : readStale t cancel (UpdatePlan.of v files).stale = .ok b) (hcancelled : b.cancelled = 0) :
    (UpdatePlan.of v files).errors ++ b.failed.map (·.2) =
      files.filterMap (fun a => (v a).error?) ++ files.filterMap fun a => refused? t a (v a) := by
  obtain ⟨-, -, hfailed, hcount⟩ := readStale_outcomes hread
  rw [hfailed, untilCancelled_all (by omega), failures_of]
  rfl

theorem filter_paths {files' : List ArtifactFile} (hsub : files'.Sublist files)
    (hnodup : (files.map (·.path)).Nodup) :
    files.filter (fun a => a.path ∈ files'.map (·.path)) = files' := by
  induction hsub with
  | slnil => rfl
  | @cons files' files a hsub ih =>
    obtain ⟨hnew, hnodup⟩ := List.nodup_cons.1 hnodup
    have hout : a.path ∉ files'.map (·.path) := fun hin => hnew ((hsub.map (·.path)).subset hin)
    rw [List.filter_cons_of_neg (by simpa using hout), ih hnodup]
  | @cons_cons files' files a hsub ih =>
    obtain ⟨hnew, hnodup⟩ := List.nodup_cons.1 hnodup
    rw [List.filter_cons_of_pos (by simp)]
    refine congrArg (a :: ·) (Eq.trans (List.filter_congr fun f hf => ?_) (ih hnodup))
    have hne : f.path ≠ a.path := fun heq => hnew (List.mem_map.2 ⟨f, hf, heq⟩)
    simp [hne]

/-- Of errors that name their file, those of some of the files are kept. -/
theorem filter_errors {files' : List ArtifactFile} (hsub : files'.Sublist files)
    (hnodup : (files.map (·.path)).Nodup) {error : ArtifactFile → Option FileError}
    (hpath : ∀ a e, error a = some e → e.path = a.path) :
    (files.filterMap error).filter (fun e => e.path ∈ files'.map (·.path)) = files'.filterMap error := by
  conv_rhs => rw [← filter_paths hsub hnodup]
  rw [List.filter_filterMap, List.filterMap_filter]
  refine List.filterMap_congr fun a _ => ?_
  cases herror : error a with
  | none => simp
  | some e => simp [hpath a e herror, Option.filter]

end Update

end Crossref
