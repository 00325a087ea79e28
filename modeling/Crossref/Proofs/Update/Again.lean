/-
The same update again. As long as no content changes the next update of the files, or of
some of them, reads nothing but what was refused, reports the same errors and changes
nothing but recorded times: its purges find nothing, no link is detached, no orphan goes
and none is left to be linked.
-/
import Crossref.Proofs.Store.Still
import Crossref.Proofs.Update.Standing

namespace Crossref.Update

open StoreM StoreM.Ends

variable {t t' : FileTree} {cancel : Nat → Bool} {p : UpdatePlan} {b : ReadBatch} {s s₁ : Store} {now : Int}
  {stats : UpdateStats} {progress : List Progress} {c : Contents} {files files' : List ArtifactFile}
  {includeRuntime : Bool}

/-! ## Merging nothing new -/

section
variable {fit : Prop}

theorem purge_still (h : c.Sound) {path : String} (hsilent : c.Silent path) :
    Ends s (purge path) c (fun _ c' => c' = c) (Refused fit) := by
  refine query_bind h.toComplete (refuses_of_fits (by simp)) ?_
  cases hfound : c.fileId? path with
  | none => exact Ends.pure rfl
  | some id =>
    have hid : c.filePath? id = some path := h.fileId?_eq_some.1 hfound
    have hne {i : Int} (hi : c.filePath? i ≠ some path) : decide (i ≠ id) = true :=
      decide_eq_true fun heq => hi (heq ▸ hid)
    have hsame : c.withoutArtifact id = c := by
      unfold Contents.withoutArtifact
      rw [List.filter_eq_self.2 fun r hr => hne (hsilent.parameters r hr),
        List.filter_eq_self.2 fun r hr => hne (hsilent.references r hr),
        List.filter_eq_self.2 fun r hr => hne (hsilent.declarations r hr),
        List.filter_eq_self.2 fun r hr => hne (hsilent.dependencies r hr),
        List.filter_eq_self.2 fun a ha => hne fun hpath => hsilent.record ⟨a, ha, hpath⟩]
    exact (Store.purgeArtifact_leaves h hid).weaken fun _ _ hc => hc.trans hsame

theorem touch_retimes (h : c.Sound) (path : String) (mtime : Int) :
    Ends s (touch path mtime) c (fun _ c' => c' = c.retimed (Contents.timeAt path mtime)) (Refused fit) := by
  refine query_bind h.toComplete (refuses_of_fits (by simp)) ?_
  cases hfound : c.fileId? path with
  | none => exact Ends.pure (h.retimed_of_unrecorded hfound mtime).symm
  | some id =>
    have hid : c.filePath? id = some path := h.fileId?_eq_some.1 hfound
    refine (execute_ok h.toComplete (h.refuses_file hid)).weaken fun _ _ hpost => ?_
    exact hpost.1.trans (h.touchArtifact_eq hid mtime)

/-- Touching one artifact after the other gives each its last time. -/
theorem touches_retime (h : c.Sound) (touched : List (String × Int)) :
    Ends s (touched.forM fun (path, mtime) => touch path mtime) c
      (fun _ c' => c' = c.retimed fun path => touched.reverse.lookup path) (Refused fit) := by
  induction touched generalizing c with
  | nil => exact Ends.pure Contents.retimed_none.symm
  | cons first touched ih =>
    obtain ⟨path, mtime⟩ := first
    change Ends s (touch path mtime >>= fun _ => touched.forM fun (path, mtime) => touch path mtime) c _ _
    refine (touch_retimes h path mtime).bind fun _ c₁ hc₁ => ?_
    subst hc₁
    refine (ih (h.retimed _)).weaken fun _ _ hc => ?_
    rw [hc, Contents.retimed_retimed]
    congr 1
    funext q
    have hlast : Contents.timeAt path mtime q = [(path, mtime)].lookup q := by
      unfold Contents.timeAt
      by_cases hq : q = path
      · simp [hq]
      · have hne : (q == path) = false := by simpa using hq
        rw [if_neg hq, List.lookup_cons, hne]
        rfl
    rw [List.reverse_cons, List.lookup_append, hlast]

/-- **A batch without units, whose artifacts left nothing, changes recorded times and nothing
else.** -/
theorem mergeBatch_still (h : c.Sound) (hsettled : c.Settled) (hparsed : b.parsed = [])
    (hfailed : ∀ q ∈ b.failed, c.Silent q.1.artifact.path) (touched : List (String × Int)) (now : Int) :
    Ends s (mergeBatch b touched now) c
      (fun counts c' => counts = ⟨0, 0⟩ ∧
        let c₁ := c.retimed fun path => touched.reverse.lookup path
        (c' = c₁ ∨ ∃ text, c' = c₁.setSetting Contents.indexedKey text))
      (Refused fit) := by
  have hpurged : Ends s ((b.parsed.map (·.1) ++ b.failed.map (·.1)).forM fun st => purge st.artifact.path)
      c (fun _ c' => c' = c) (Refused fit) := by
    let I (rest : List StaleArtifact) (c' : Contents) : Prop :=
      c' = c ∧ ∀ st ∈ rest, c.Silent st.artifact.path
    refine (Ends.forM I (fun st rest c' hI => ?_) ⟨rfl, ?_⟩).weaken fun _ _ hI => hI.1
    · obtain ⟨rfl, hrest⟩ := hI
      refine (purge_still h (hrest st (by simp))).weaken fun _ _ hc => ?_
      exact ⟨hc, fun st' hst' => hrest st' (List.mem_cons_of_mem _ hst')⟩
    · rw [hparsed]
      intro st hst
      obtain ⟨q, hq, rfl⟩ := List.mem_map.1 hst
      exact hfailed q hq
  refine hpurged.keep_bind fun _ => ?_
  refine (touches_retime h touched).bind fun _ c₁ hc₁ => ?_
  subst hc₁
  have hsound := h.retimed fun path => touched.reverse.lookup path
  have hstill := hsettled.retimed fun path => touched.reverse.lookup path
  rw [hparsed]
  have hlinked : Ends s (linkBatch registerDeclaration (some Store.findEntity) [])
      (c.retimed fun path => touched.reverse.lookup path)
      (fun linked c' => linked = [] ∧ c' = c.retimed fun path => touched.reverse.lookup path)
      (Refused fit) := Ends.pure ⟨rfl, rfl⟩
  refine hlinked.bind fun linked c₂ hc₂ => ?_
  obtain ⟨rfl, rfl⟩ := hc₂
  refine Ends.keep_bind (Ends.pure rfl) fun _ => ?_
  refine (Store.detachUndeclared_still hsound.toComplete hstill).keep_bind fun _ => ?_
  refine (Store.pruneOrphans_still hsound.toComplete hstill).bind fun pruned c₂ hc₂ => ?_
  obtain ⟨rfl, rfl⟩ := hc₂
  refine (Store.relinkPending_still hsound.toComplete hstill).bind fun relinked c₂ hc₂ => ?_
  obtain ⟨rfl, rfl⟩ := hc₂
  split
  · refine Ends.bind (execute_ok hsound.toComplete (refuses_of_fits (by simp))) fun _ c₂ hc₂ => ?_
    exact Ends.pure ⟨rfl, .inr ⟨_, hc₂.1⟩⟩
  · exact Ends.pure ⟨rfl, .inl rfl⟩

end

/-! ## Updates that rest -/

/-- What an update answers and leaves that changes recorded times and nothing else. -/
structure Rests (time : String → Option Int) (errors : List FileError) (c : Contents) (stats : UpdateStats)
    (c' : Contents) : Prop where
  added : stats.added = 0
  updated : stats.updated = 0
  pruned : stats.pruned = 0
  relinked : stats.relinked = 0
  errors : stats.cancelled = 0 → stats.errors = errors
  contents : c' = c.retimed time ∨ ∃ text, c' = (c.retimed time).setSetting Contents.indexedKey text

/-- Artifacts that are all refused make a batch without units. -/
theorem readStale_refused {stale : List StaleArtifact}
    (h : ∀ st ∈ stale, ∃ e, readArtifact t st.artifact.path = .ok (.error e)) :
    ∃ b, readStale t cancel stale = .ok b ∧ b.parsed = [] ∧ (∀ q ∈ b.failed, q.1 ∈ stale) ∧
      (b.cancelled = 0 → b.failed = stale.filterMap (refusal? t)) := by
  have hattempted : ∀ st ∈ untilCancelled cancel 0 stale, st ∈ stale :=
    fun st hst => (untilCancelled_sublist cancel 0 stale).subset hst
  obtain ⟨b, hread, hparsed, hfailed, hcount⟩ := readStale_of_outcomes (t := t) fun st hst => by
    obtain ⟨e, he⟩ := h st (hattempted st hst)
    exact ⟨_, he⟩
  refine ⟨b, hread, ?_, fun q hq => ?_, fun hcancelled => ?_⟩
  · rw [hparsed]
    refine List.filterMap_eq_nil_iff.2 fun st hst => ?_
    obtain ⟨e, he⟩ := h st (hattempted st hst)
    simp [unit?, he]
  · rw [hfailed] at hq
    obtain ⟨st, hst, hrefusal⟩ := List.mem_filterMap.1 hq
    rw [(refusal?_eq_some.1 hrefusal).1]
    exact hattempted st hst
  · rw [hfailed, untilCancelled_all (by omega)]

/-- The merge of a batch without units rests. -/
theorem merge_rests (hs : s.Idle) (hc : s.contents.Reached) (hsettled : s.contents.Settled)
    (hparsed : b.parsed = []) (hfailed : ∀ q ∈ b.failed, ¬s.contents.Indexed q.1.artifact.path)
    (h : merge p b now s = (.ok stats, s₁)) :
    stats.cancelled = b.cancelled ∧
      Rests (fun path => p.touched.reverse.lookup path) (p.errors ++ b.failed.map (·.2)) s.contents stats
        s₁.contents := by
  obtain ⟨L, hm⟩ := hc.mirrors
  have hnamed : ∀ u ∈ b.units, u.Named := by simp [ReadBatch.units, hparsed]
  have hends : Ends s (mergeBatch b p.touched now) s.contents
      (fun counts c' => counts = ⟨0, 0⟩ ∧
        let c₁ := s.contents.retimed fun path => p.touched.reverse.lookup path
        (c' = c₁ ∨ ∃ text, c' = c₁.setSetting Contents.indexedKey text)) (Refused True) :=
    mergeBatch_still hc.sound hsettled hparsed (fun q hq => hc.silent (hfailed q hq)) p.touched now
  unfold Ends at hends
  rw [hs.holding] at hends
  rw [merge_apply hs hm hnamed] at h
  rcases hr : mergeBatch b p.touched now s with ⟨e | counts, s'⟩ <;> rw [hr] at hends h
  · cases h
  · obtain ⟨c', rfl, rfl, hcontents⟩ := hends
    obtain ⟨hanswer, rfl⟩ := Prod.mk.inj h
    obtain rfl := Except.ok.inj hanswer
    refine ⟨rfl, ?_, ?_, rfl, rfl, fun _ => rfl, hcontents⟩
    · simp only [answer, hparsed, List.countP_nil]
    · simp only [answer, hparsed, List.length_nil, Nat.zero_sub]

/-- **An update whose stale artifacts are refused, none of which has a record, returns and rests.** -/
theorem apply_rests (hs : s.Idle) (hc : s.contents.Reached) (hsettled : s.contents.Settled)
    (hrefused : ∀ st ∈ p.stale, (∃ e, readArtifact t st.artifact.path = .ok (.error e)) ∧
      ¬s.contents.Indexed st.artifact.path) (cancel : Nat → Bool) (now : Int) :
    (∃ answer, (apply t cancel now p s).1 = .ok answer) ∧
      ∀ stats progress s', apply t cancel now p s = (.ok (stats, progress), s') →
        Rests (fun path => p.touched.reverse.lookup path)
          (p.errors ++ (p.stale.filterMap (refusal? t)).map (·.2)) s.contents stats s'.contents := by
  obtain ⟨b, hread, hparsed, hfailed, hall⟩ := readStale_refused fun st hst => (hrefused st hst).1
  refine ⟨?_, fun stats progress s' happly => ?_⟩
  · obtain ⟨L, hm⟩ := hc.mirrors
    have hunits : b.units = [] := by rw [ReadBatch.units, hparsed, List.map_nil]
    have hroom : ¬s.contents.Lacks b.demand := by
      rw [ReadBatch.demand, hunits]
      exact hc.sound.not_lacks_nothing
    obtain ⟨stats, hok⟩ : ∃ stats, (merge p b now s).1 = .ok stats :=
      merge_ok hs hm (readStale_named hread) (by simp [hunits]) hroom
    rw [apply_of_read hread]
    rcases hr : merge p b now s with ⟨e | stats', s'⟩ <;> rw [hr] at hok
    · cases hok
    · exact ⟨_, rfl⟩
  · obtain ⟨b', hread', hmerge⟩ := apply_ok happly
    obtain rfl : b = b' := Except.ok.inj (hread.symm.trans hread')
    have hunrecorded : ∀ q ∈ b.failed, ¬s.contents.Indexed q.1.artifact.path :=
      fun q hq => (hrefused _ (hfailed q hq)).2
    obtain ⟨hcancelled, hrests⟩ := merge_rests hs hc hsettled hparsed hunrecorded hmerge
    refine { hrests with errors := fun hnone => ?_ }
    rw [hrests.errors hnone, hall (hcancelled ▸ hnone)]

/-! ## The next update -/

/-- The files of the artifacts are where they were and read as before, whatever their times are. -/
structure ReadsAs (t t' : FileTree) (files : List ArtifactFile) : Prop where
  resolve : ∀ f ∈ files, t'.resolve f.path = t.resolve f.path
  read : ∀ f ∈ files, t'.read (artifactPath t f.path) = t.read (artifactPath t f.path)

/-- The times that the artifacts have now which a plan lists as up to date. -/
def currentTime (t : FileTree) (p : UpdatePlan) (path : String) : Option Int :=
  if path ∈ p.upToDate then (t.stat path).toOption else none

/-- The new times that a plan gives are the current ones of what is up to date. -/
theorem retimed_touched (hc : c.Reached) {found : List ArtifactFile}
    (hp : p = .of (verdict t c.artifactStamps includeRuntime) found) :
    (c.retimed fun path => p.touched.reverse.lookup path) = c.retimed (currentTime t p) := by
  refine Contents.retimed_congr fun row hrow path hpath => ?_
  have hgrounds := verdict_grounds t c includeRuntime
  have hlisted {mtime : Int} (h : (path, mtime) ∈ p.touched) : t.stat path = .ok mtime := by
    rw [hp, mem_touched_of] at h
    obtain ⟨a, -, rfl, hv⟩ := h
    have ha := hgrounds a
    rw [hv] at ha
    obtain ⟨_, _, hopens, -⟩ := ha
    exact hopens.stat
  unfold currentTime
  cases hlookup : p.touched.reverse.lookup path with
  | some mtime =>
    obtain ⟨before, after, hsplit, -⟩ := List.lookup_eq_some_iff.1 hlookup
    have hmem : (path, mtime) ∈ p.touched := List.mem_reverse.1 (by simp [hsplit])
    have hin : path ∈ p.upToDate := by
      rw [hp, mem_touched_of] at hmem
      obtain ⟨a, ha, hpath, hv⟩ := hmem
      rw [hp, mem_upToDate_of]
      exact ⟨a, ha, hpath, .inr ⟨mtime, hv⟩⟩
    rw [if_pos hin, hlisted hmem]
    rfl
  | none =>
    split
    next hin =>
      rw [hp, mem_upToDate_of] at hin
      obtain ⟨a, ha, rfl, hv | ⟨mtime, hv⟩⟩ := hin
      · -- the recorded time is the current one
        have hground := hgrounds a
        rw [hv] at hground
        obtain ⟨mtime, checksum, hstat, hr⟩ := hground
        obtain ⟨rfl, -⟩ := hc.recorded_unique hr ⟨row, hrow, hpath, rfl, rfl⟩
        rw [hstat]
        rfl
      · have hmem : (a.path, mtime) ∈ p.touched := hp ▸ mem_touched_of.2 ⟨a, ha, rfl, hv⟩
        have hnone := List.lookup_eq_none_iff.1 hlookup _ (List.mem_reverse.2 hmem)
        simp at hnone
    next => rfl

/-- **Updating again changes nothing.** After an update that was not cancelled and did not fail, let
the files of some of its artifacts read as before, whatever their times are, and let each of them
that had its recorded time hold what was recorded. Then the next plan for these artifacts holds no
stale one but such as were refused; the update returns, adds, updates, prunes and relinks nothing,
reports the same errors for them and leaves every row but for the times of those that are up to
date, which are the current ones, and its own time. -/
theorem again_rests (hs : s.Idle) (hc : s.contents.Reached)
    (hfiles : ((located t files).map (·.path)).Nodup) (hplan : (plan t files includeRuntime s).1 = .ok p)
    (happly : apply t cancel now p s = (.ok (stats, progress), s₁)) (hcancelled : stats.cancelled = 0)
    (hsub : files'.Sublist files) (hreads : ReadsAs t t' files')
    (htrust : ∀ f ∈ files', Trusts t s.contents (artifactPath t f.path)) :
    ∃ p', plan t' files' includeRuntime s₁ = (.ok p', s₁) ∧
      (∀ st ∈ p'.stale, ∃ e ∈ stats.errors, e.path = st.artifact.path ∧
        readArtifact t st.artifact.path = .ok (.error e)) ∧
      ∀ (cancel' : Nat → Bool) (now' : Int),
        (∃ answer, (apply t' cancel' now' p' s₁).1 = .ok answer) ∧
          ∀ stats' progress' s₂, apply t' cancel' now' p' s₁ = (.ok (stats', progress'), s₂) →
            Rests (currentTime t' p')
              (stats.errors.filter fun e => e.path ∈ (located t files').map (·.path))
              s₁.contents stats' s₂.contents := by
  have hplanned : plan t files includeRuntime s = (.ok p, s) := by
    rw [plan_apply hs.transaction hc.isIndex] at hplan ⊢
    exact congrArg (·, s) hplan
  obtain ⟨hresolves, hp⟩ := (plan_iff hs.transaction hc hfiles).1 hplanned
  have hresolves' : ∀ f ∈ files', Resolves t f := fun f hf => hresolves f (hsub.subset hf)
  obtain ⟨b, hread, hlands, hall, herrors⟩ := apply_lands hs hc (plan_distinct hplan) happly
  rw [hcancelled] at hall
  obtain ⟨hs₁, hc₁⟩ : s₁.Idle ∧ s₁.contents.Reached := by
    have hreached := UpdateStep.run_reached ⟨t, cancel, now, p⟩ hs hc
    rwa [UpdateStep.run, happly] at hreached
  have hsubset : (located t files').Sublist (located t files) := hsub.map _
  let v := verdict t s.contents.artifactStamps includeRuntime
  let v' := verdict t' s₁.contents.artifactStamps includeRuntime
  have hagain : ∀ a ∈ located t files', Repeats t t' s₁.contents a (v a) (v' a) := by
    intro a ha
    obtain ⟨f, hf, rfl⟩ := List.mem_map.1 ha
    exact repeats hfiles hp hread hall.symm hlands hc₁ (hsubset.subset ha) (htrust f hf) (hreads.read f hf)
  have hp' : plan t' files' includeRuntime s₁ = (.ok (.of v' (located t files')), s₁) := by
    have hfiles' := hfiles.sublist (hsubset.map (·.path))
    rw [← located_congr hresolves' hreads.resolve] at hfiles' ⊢
    refine (plan_iff hs₁.transaction hc₁ hfiles').2 ⟨fun f hf => ?_, rfl⟩
    obtain ⟨q, hq⟩ := hresolves' f hf
    exact ⟨q, (hreads.resolve f hf).trans hq⟩
  rw [hp] at hread herrors
  rw [herrors, errors_by_file hread hall.symm]
  refine ⟨_, hp', fun st hst => ?_, fun cancel' now' => ?_⟩
  · obtain ⟨ha, hv⟩ := mem_stale_of.1 hst
    obtain ⟨e, he, hrefused, -⟩ := (hagain _ ha).stale _ _ hv
    obtain ⟨f, hf, hlocated⟩ := List.mem_map.1 ha
    have hsame : t'.read st.artifact.path = t.read st.artifact.path := hlocated ▸ hreads.read f hf
    refine ⟨e, List.mem_append_right _ ?_, readArtifact_refusal hrefused,
      (readArtifact_congr hsame).symm.trans hrefused⟩
    exact List.mem_filterMap.2 ⟨_, hsubset.subset ha, he⟩
  · have hrefused : ∀ st ∈ (UpdatePlan.of v' (located t files')).stale,
        (∃ e, readArtifact t' st.artifact.path = .ok (.error e)) ∧
          ¬s₁.contents.Indexed st.artifact.path := by
      intro st hst
      obtain ⟨ha, hv⟩ := mem_stale_of.1 hst
      obtain ⟨e, -, hrefused, hnone⟩ := (hagain _ ha).stale _ _ hv
      exact ⟨⟨e, hrefused⟩, hnone⟩
    obtain ⟨hreturns, hrests⟩ := apply_rests hs₁ hc₁ hlands.settled hrefused cancel' now'
    refine ⟨hreturns, fun stats' progress' s₂ happly' => ?_⟩
    have hrest := hrests stats' progress' s₂ happly'
    refine { hrest with errors := fun hcancelled' => ?_, contents := ?_ }
    · rw [hrest.errors hcancelled', failures_of, List.filter_append,
        filter_errors hsubset hfiles fun a e he => error_path he,
        filter_errors hsubset hfiles fun a e he => refused_path he]
      exact congrArg₂ (· ++ ·) (List.filterMap_congr fun a ha => (hagain a ha).planned)
        (List.filterMap_congr fun a ha => (hagain a ha).refused)
    · rw [← retimed_touched hc₁ rfl]
      exact hrest.contents

end Crossref.Update

namespace Crossref.Overflow

open Update

/-! ## Refused again -/

/-- The two artifacts later, as they were but for their times. -/
def later : FileTree where
  cwd := ["t"]
  nodes := [(["t"], .directory), (["t", "a.ali"], .bytes good.toUTF8.toList 5),
    (["t", "b.ali"], .bytes dangling.toUTF8.toList 6)]

/-- Beside an artifact that was merged the one that was refused is refused again, and the store
rests. -/
theorem refused_again :
    ∃ stats progress s₁, apply (tree dangling) (fun _ => false) 3 both store = (.ok (stats, progress), s₁) ∧
      stats.errors.map (·.path) = ["/t/b.ali"] ∧
      ∃ p', plan later files true s₁ = (.ok p', s₁) ∧
        ∃ stats' progress' s₂, apply later (fun _ => false) 4 p' s₁ = (.ok (stats', progress'), s₂) ∧
          Rests (currentTime later p')
            (stats.errors.filter fun e => e.path ∈ (located (tree dangling) files).map (·.path))
            s₁.contents stats' s₂.contents := by
  have hidle : store.Idle := (History.run_sound "s" []).idle
  have hplan : (plan (tree dangling) files true store).1 = .ok both := by decide +kernel
  have hdone : (apply (tree dangling) (fun _ => false) 3 both store).1.map
      (fun r => (r.1.cancelled, r.1.errors.map (·.path))) = .ok (0, ["/t/b.ali"]) := by decide +kernel
  have hnodup : ((located (tree dangling) files).map (·.path)).Nodup := by decide +kernel
  have htrust : ∀ f ∈ files, Trusts (tree dangling) store.contents (artifactPath (tree dangling) f.path) := by
    intro _ _ _ _ hr
    obtain ⟨_, ha, -⟩ := hr
    cases ha
  have hreads : ∀ f ∈ files, later.read (artifactPath (tree dangling) f.path) =
      (tree dangling).read (artifactPath (tree dangling) f.path) := by decide +kernel
  have hresolve : ∀ f ∈ files, later.resolve f.path = (tree dangling).resolve f.path := by decide +kernel
  rcases happly : apply (tree dangling) (fun _ => false) 3 both store with ⟨e | ⟨stats, progress⟩, s₁⟩ <;>
    rw [happly] at hdone
  · cases hdone
  · obtain ⟨hcancelled, herrors⟩ := Prod.mk.inj (Except.ok.inj hdone)
    have hreads' : ReadsAs (tree dangling) later files := ⟨hresolve, hreads⟩
    obtain ⟨p', hplan', -, hrests⟩ :=
      again_rests hidle ⟨"s", [], rfl⟩ hnodup hplan happly hcancelled (List.Sublist.refl files) hreads' htrust
    obtain ⟨⟨⟨stats', progress'⟩, hanswer⟩, hrest⟩ := hrests (fun _ => false) 4
    have happly' : apply later (fun _ => false) 4 p' s₁ =
        (.ok (stats', progress'), (apply later (fun _ => false) 4 p' s₁).2) := Prod.ext hanswer rfl
    exact ⟨stats, progress, s₁, rfl, herrors, p', hplan', stats', progress', _, happly', hrest _ _ _ happly'⟩

end Crossref.Overflow

namespace Crossref.WrittenMeanwhile

open Update

/-- The artifact alone. -/
def holding (name : String) (mtime : Int) : FileTree :=
  ⟨["t"], [(["t"], .directory), (["t", "v.ali"], .bytes (declaring name) mtime)], []⟩

def stale (isNew : Bool) (mtime : Int) : UpdatePlan :=
  { stale := [⟨{ path := "/t/v.ali" }, mtime, isNew⟩] }

/-- The artifact was indexed when it declared another function. -/
def indexed : Store :=
  (History.run "x.db" [⟨holding "F" 1, fun _ => false, 10, stale true 1⟩]).store

/-- An update finds the artifact up to date. -/
def trusted : Except Failure (UpdateStats × List Progress) × Store :=
  apply (holding "G" 1) (fun _ => false) 20 { upToDate := ["/t/v.ali"] } indexed

/-- The artifact declares another function now and has the recorded time. An update takes it for up to
date; when it is touched, and no content changes, the next update replaces what it declares. -/
theorem trusted_then_replaced :
    indexed.Idle ∧ indexed.contents.Reached ∧
      ((located (holding "G" 1) artifacts).map (·.path)).Nodup ∧
      (plan (holding "G" 1) artifacts true indexed).1 = .ok { upToDate := ["/t/v.ali"] } ∧
      trusted.1.map (fun r => (r.1.cancelled, r.1.errors)) = .ok (0, []) ∧
      ReadsAs (holding "G" 1) (holding "G" 2) artifacts ∧
      (plan (holding "G" 2) artifacts true trusted.2).1 = .ok (stale false 2) ∧
      (apply (holding "G" 2) (fun _ => false) 30 (stale false 2) trusted.2).1.map
        (fun r => (r.1.updated, r.1.pruned)) = .ok (1, 1) := by
  have hruns : (plan (holding "G" 1) artifacts true indexed).1 = .ok { upToDate := ["/t/v.ali"] } ∧
      trusted.1.map (fun r => (r.1.cancelled, r.1.errors)) = .ok (0, []) ∧
      (plan (holding "G" 2) artifacts true trusted.2).1 = .ok (stale false 2) ∧
      (apply (holding "G" 2) (fun _ => false) 30 (stale false 2) trusted.2).1.map
        (fun r => (r.1.updated, r.1.pruned)) = .ok (1, 1) := by decide +kernel
  obtain ⟨hplan, htrusted, hplan', hreplaced⟩ := hruns
  exact ⟨(History.run_sound _ _).idle, ⟨_, _, rfl⟩, by decide +kernel, hplan, htrusted,
    ⟨by decide +kernel, by decide +kernel⟩, hplan', hreplaced⟩

end Crossref.WrittenMeanwhile
