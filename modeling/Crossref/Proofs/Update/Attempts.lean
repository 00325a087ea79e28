/-
What becomes of each artifact that an update attempts. Reading sorts the attempted
artifacts, in their order, into units and refusals, unless one of them holds a
numeral that cannot be read. The merge then records each unit with everything that
it says, and of an artifact that was refused nothing is left.
-/
import Crossref.Proofs.Update.Ownership
import Crossref.Proofs.Update.UpToDate

namespace Crossref

/-! ## Reading -/

namespace Update

/-- The stale artifacts that come before the cancellation. -/
def untilCancelled (cancel : Nat → Bool) : Nat → List StaleArtifact → List StaleArtifact
  | _, [] => []
  | i, st :: rest => if cancel i then [] else st :: untilCancelled cancel (i + 1) rest

/-- The artifact with its unit, if it can be read. -/
def unit? (t : FileTree) (st : StaleArtifact) : Option (StaleArtifact × CompilationUnit) :=
  match readArtifact t st.artifact.path with
  | .ok (.ok u) => some (st, u)
  | _ => none

/-- The artifact with the reason why it is refused. -/
def refusal? (t : FileTree) (st : StaleArtifact) : Option (StaleArtifact × FileError) :=
  match readArtifact t st.artifact.path with
  | .ok (.error e) => some (st, e)
  | _ => none

variable {t : FileTree} {cancel : Nat → Bool} {total : Nat}

theorem untilCancelled_sublist (cancel : Nat → Bool) :
    ∀ (i : Nat) (stale : List StaleArtifact), (untilCancelled cancel i stale).Sublist stale
  | _, [] => List.Sublist.slnil
  | i, st :: rest => by
    unfold untilCancelled
    split
    · exact List.nil_sublist _
    · exact (untilCancelled_sublist cancel (i + 1) rest).cons_cons st

theorem unit?_eq_some {st : StaleArtifact} {p : StaleArtifact × CompilationUnit} :
    unit? t st = some p ↔ p.1 = st ∧ readArtifact t st.artifact.path = .ok (.ok p.2) := by
  obtain ⟨st', u⟩ := p
  unfold unit?
  split
  next v hread => simp [hread, eq_comm]
  next hnone =>
    constructor
    · intro h
      cases h
    · intro h
      exact absurd h.2 (hnone u)

theorem refusal?_eq_some {st : StaleArtifact} {p : StaleArtifact × FileError} :
    refusal? t st = some p ↔ p.1 = st ∧ readArtifact t st.artifact.path = .ok (.error p.2) := by
  obtain ⟨st', e⟩ := p
  unfold refusal?
  split
  next v hread => simp [hread, eq_comm]
  next hnone =>
    constructor
    · intro h
      cases h
    · intro h
      exact absurd h.2 (hnone e)

/-- **If every numeral can be read, the batch holds the attempted artifacts in order, each with its
unit or with the reason why it is refused.** -/
theorem readFrom_outcomes : ∀ {stale : List StaleArtifact} {i : Nat},
    (∀ st ∈ untilCancelled cancel i stale, ∃ outcome, readArtifact t st.artifact.path = .ok outcome) →
      ∃ b, readFrom t cancel total i stale = .ok b ∧
        b.parsed = (untilCancelled cancel i stale).filterMap (unit? t) ∧
        b.failed = (untilCancelled cancel i stale).filterMap (refusal? t) ∧
        b.cancelled + (untilCancelled cancel i stale).length = stale.length
  | [], _, _ => ⟨{}, rfl, rfl, rfl, rfl⟩
  | st :: rest, i, h => by
    unfold untilCancelled at h ⊢
    cases hc : cancel i with
    | true => exact ⟨{ cancelled := rest.length + 1 }, by simp [readFrom, hc], rfl, rfl, rfl⟩
    | false =>
      simp only [hc, Bool.false_eq_true, if_false, List.mem_cons, forall_eq_or_imp] at h ⊢
      obtain ⟨⟨outcome, hread⟩, hrest⟩ := h
      obtain ⟨b, hb, hparsed, hfailed, hcount⟩ := readFrom_outcomes (i := i + 1) hrest
      rw [readFrom_cons hc, hread, hb]
      cases outcome with
      | ok u =>
        refine ⟨_, rfl, ?_, ?_, ?_⟩
        · simp [unit?, hread, hparsed]
        · simp [refusal?, hread, hfailed]
        · simp only [List.length_cons]
          omega
      | error e =>
        refine ⟨_, rfl, ?_, ?_, ?_⟩
        · simp [unit?, hread, hparsed]
        · simp [refusal?, hread, hfailed]
        · simp only [List.length_cons]
          omega

/-- A numeral that cannot be read ends the reading of all artifacts. -/
theorem readFrom_breaks {st : StaleArtifact} {e : Failure}
    (hread : readArtifact t st.artifact.path = .error e) : ∀ {stale : List StaleArtifact} {i : Nat},
      st ∈ untilCancelled cancel i stale → ∃ e', readFrom t cancel total i stale = .error e'
  | [], _, hst => by cases hst
  | first :: rest, i, hst => by
    unfold untilCancelled at hst
    cases hc : cancel i with
    | true => simp [hc] at hst
    | false =>
      simp only [hc, Bool.false_eq_true, if_false, List.mem_cons] at hst
      rw [readFrom_cons hc]
      cases hfirst : readArtifact t first.artifact.path with
      | error e' => exact ⟨e', rfl⟩
      | ok outcome =>
        have hst : st ∈ untilCancelled cancel (i + 1) rest := by
          rcases hst with rfl | hst
          · rw [hread] at hfirst
            cases hfirst
          · exact hst
        obtain ⟨e', he⟩ := readFrom_breaks hread hst
        exact ⟨e', by rw [he]; rfl⟩

/-- An artifact that can be opened is refused for what it says. -/
theorem refusal_of_opens {path : String} {content : Text.Bytes} {e : FileError}
    (hcontent : t.read path = .ok content) (h : readArtifact t path = .ok (.error e)) :
    e.path = path ∧ e.kind = .parse := by
  unfold readArtifact at h
  rw [hcontent] at h
  dsimp only at h
  split at h
  · cases h
  · obtain rfl := Except.error.inj (Except.ok.inj h)
    exact ⟨rfl, rfl⟩
  · cases h

end Update

/-! ## The ledger after the merge -/

theorem ReadBatch.parsed_nodup {b : ReadBatch} (hd : b.paths.Nodup) :
    (b.parsed.map (·.1.artifact.path)).Nodup := by
  have h := b.merged_nodup hd
  rw [ReadBatch.merged, List.map_map] at h
  exact h

namespace Ledger

variable {L : Ledger} {b : ReadBatch} {touched : List (String × Int)}

/-- What the write of a unit brings about and writes for other artifacts keep holds after all
writes. -/
theorem written_of_parsed {Q : Ledger → Prop} {p : StaleArtifact × CompilationUnit}
    (hnew : ∀ L : Ledger, Q (L.write p.1 p.2))
    (hkeep : ∀ (L : Ledger) (q : StaleArtifact × CompilationUnit),
      q.1.artifact.path ≠ p.1.artifact.path → Q L → Q (L.write q.1 q.2)) :
    ∀ {parsed : List (StaleArtifact × CompilationUnit)} (L : Ledger),
      (parsed.map (·.1.artifact.path)).Nodup → p ∈ parsed →
        Q (parsed.foldl (fun L p => L.write p.1 p.2) L) := by
  intro parsed
  induction parsed using List.reverseRecOn with
  | nil =>
    intro L _ hp
    cases hp
  | append_singleton parsed q ih =>
    intro L hd hp
    rw [List.map_append, List.nodup_append] at hd
    obtain ⟨hd, -, hother⟩ := hd
    rw [List.foldl_append]
    rcases List.mem_append.1 hp with hp | hp
    · refine hkeep _ q (fun heq => ?_) (ih L hd hp)
      exact hother _ (List.mem_map_of_mem hp) _ (by simp) heq.symm
    · obtain rfl := List.mem_singleton.1 hp
      exact hnew _

theorem mem_recordArtifact (L : Ledger) (new : ArtifactFact) : new ∈ (L.recordArtifact new).artifacts := by
  unfold recordArtifact
  simp only
  split
  next hany =>
    obtain ⟨a, ha, hpath⟩ := List.any_eq_true.1 hany
    exact List.mem_map.2 ⟨a, ha, if_pos (of_decide_eq_true hpath)⟩
  · simp

theorem mem_recordArtifact_of_ne {new f : ArtifactFact} (hf : f ∈ L.artifacts) (hne : f.path ≠ new.path) :
    f ∈ (L.recordArtifact new).artifacts := by
  unfold recordArtifact
  simp only
  split
  · exact List.mem_map.2 ⟨f, hf, if_neg hne⟩
  · exact List.mem_append_left _ hf

/-- Every artifact that was read is recorded with the time and the checksum that it was read at. -/
theorem mem_artifacts_of_parsed {p : StaleArtifact × CompilationUnit} (hd : b.paths.Nodup)
    (hp : p ∈ b.parsed) :
    ⟨p.1.artifact.path, p.2.unitName, p.1.mtime, p.2.checksum⟩ ∈ (L.merge b touched).artifacts :=
  written_of_parsed
    (Q := fun L => ⟨p.1.artifact.path, p.2.unitName, p.1.mtime, p.2.checksum⟩ ∈ L.artifacts)
    (fun _ => mem_recordArtifact _ _)
    (fun _ _ hne hmem => mem_recordArtifact_of_ne hmem (Ne.symm hne)) _ (ReadBatch.parsed_nodup hd) hp

/-- No artifact that was refused is recorded. -/
theorem not_records_of_failed {q : StaleArtifact × FileError} (hd : b.paths.Nodup) (hq : q ∈ b.failed) :
    ¬(L.merge b touched).Records q.1.artifact.path := by
  have hfailed : q.1.artifact.path ∈ b.failed.map (·.1.artifact.path) := List.mem_map_of_mem hq
  have hpaths : b.paths = b.merged.map (·.1) ++ b.failed.map (·.1.artifact.path) := by
    simp only [ReadBatch.paths, ReadBatch.attempted, ReadBatch.merged, List.map_append, List.map_map,
      Function.comp_def]
  rw [hpaths] at hd
  rw [records_merge]
  rintro (⟨-, hout⟩ | hparsed)
  · exact hout (hpaths ▸ List.mem_append_right _ hfailed)
  · exact (List.nodup_append.1 hd).2.2 _ hparsed _ hfailed rfl

/-- The record of an artifact that was not attempted keeps its checksum, and its time unless it gets a
new one. -/
theorem record_kept_of_merge (hkeyed : L.Keyed) {f : ArtifactFact} (hf : f ∈ L.artifacts)
    (hpath : f.path ∉ b.paths) :
    ∃ g ∈ (L.merge b touched).artifacts, g.path = f.path ∧ g.checksum = f.checksum ∧
      (g.mtime = f.mtime ∨ (f.path, g.mtime) ∈ touched) := by
  obtain ⟨g, hg, hgpath⟩ := records_merge.2 (.inl ⟨⟨f, hf, rfl⟩, hpath⟩)
  obtain ⟨mtime, htime, ⟨q, hq, hqpath, -⟩ | ⟨f', hf', hpath', rfl, hsum⟩⟩ := mem_artifacts_merge hg
  · refine absurd ?_ hpath
    rw [← hgpath, ← hqpath]
    exact b.mem_paths_of_merged (List.mem_map_of_mem hq)
  · obtain rfl := List.inj_on_of_nodup_map hkeyed.artifacts hf' hf (hpath'.trans hgpath)
    exact ⟨g, hg, hgpath, hsum.symm, hgpath ▸ htime.imp Eq.symm id⟩

theorem dependency_of_parsed {p : StaleArtifact × CompilationUnit} (hd : b.paths.Nodup)
    (hp : p ∈ b.parsed) {d : Dependency} (hdep : d ∈ p.2.dependencies) :
    ∃ f ∈ (L.merge b touched).dependencies, (f.artifact, f.path) = (p.1.artifact.path, d.path) := by
  refine written_of_parsed
    (Q := fun L => ∃ f ∈ L.dependencies, (f.artifact, f.path) = (p.1.artifact.path, d.path))
    (fun L => ?_) (fun L q hne hex => ?_) _ (ReadBatch.parsed_nodup hd) hp
  · have hsaid : d.fact p.1.artifact.path ∈ p.2.dependencyFacts p.1.artifact.path :=
      List.mem_map_of_mem hdep
    exact exists_mem_putAll _ (.inr ⟨_, hsaid, rfl⟩)
  · obtain ⟨f, hf, hslot⟩ := hex
    refine exists_mem_putAll _ (.inl ⟨f, List.mem_filter.2 ⟨hf, ?_⟩, hslot⟩)
    exact decide_eq_true fun heq => hne (heq.symm.trans (Prod.mk.inj hslot).1)

/-- Whatever a unit owns is claimed after the merge. -/
theorem isClaimed_of_parsed {p : StaleArtifact × CompilationUnit} (hd : b.paths.Nodup)
    (hp : p ∈ b.parsed) {k : EntityKey} (howns : p.2.Owns k) : (L.merge b touched).isClaimed k := by
  have hex : ∃ f ∈ (L.merge b touched).claims, f.key = k := by
    refine written_of_parsed (Q := fun L => ∃ f ∈ L.claims, f.key = k) (fun L => ?_)
      (fun L q _ hex => ?_) _ (ReadBatch.parsed_nodup hd) hp
    · exact exists_mem_putAll _ (.inr ((CompilationUnit.mem_claims_key _).2 howns))
    · exact exists_mem_putAll _ (.inl hex)
  obtain ⟨f, hf, rfl⟩ := hex
  exact List.any_eq_true.2 ⟨f, hf, decide_eq_true rfl⟩

theorem parameter_of_parsed {p : StaleArtifact × CompilationUnit} (hd : b.paths.Nodup)
    (hp : p ∈ b.parsed) {q : Parameter} (hq : q ∈ p.2.ownParameters) :
    ∃ f ∈ (L.merge b touched).parameters, (f.owner, f.ordinal) = (q.owner, (q.ordinal : Int)) := by
  have howns : p.2.Owns q.owner := by
    obtain ⟨d, hmem, hkey⟩ := List.any_eq_true.1 (List.mem_filter.1 hq).2
    exact ⟨d, hmem, of_decide_eq_true hkey⟩
  have hclaimed : (L.merge b touched).isClaimed q.owner := isClaimed_of_parsed hd hp howns
  have hex := written_of_parsed
    (Q := fun L => ∃ f ∈ L.parameters, (f.owner, f.ordinal) = (q.owner, (q.ordinal : Int)))
    (fun L => ?_) (fun L r _ hex => ?_)
    ((b.units.flatMap (·.owned)).foldl register (touched.foldl (fun L t => L.touch t.1 t.2)
      (b.attempted.foldl (fun L s => L.purge s.artifact.path) L))) (ReadBatch.parsed_nodup hd) hp
  · obtain ⟨f, hf, hslot⟩ := hex
    exact ⟨f, List.mem_filter.2 ⟨hf, (Prod.mk.inj hslot).1 ▸ hclaimed⟩, hslot⟩
  · have hsaid : q.fact p.1.artifact.path ∈ p.2.parameterFacts p.1.artifact.path :=
      List.mem_map_of_mem hq
    exact exists_mem_putAll _ (.inr ⟨_, hsaid, rfl⟩)
  · exact exists_mem_putAll _ (.inl hex)

/-- An artifact has one unit in a batch. -/
theorem filter_path_eq_singleton {p : String × CompilationUnit} :
    ∀ {units : List (String × CompilationUnit)}, (units.map (·.1)).Nodup → p ∈ units →
      units.filter (·.1 = p.1) = [p]
  | [], _, hp => by cases hp
  | q :: units, hd, hp => by
    obtain ⟨hq, hd⟩ := List.nodup_cons.1 hd
    rcases List.mem_cons.1 hp with rfl | hp
    · have hnone : units.filter (·.1 = p.1) = [] :=
        List.filter_eq_nil_iff.2 fun r hr heq =>
          hq (List.mem_map.2 ⟨r, hr, of_decide_eq_true heq⟩)
      rw [List.filter_cons_of_pos (by simp), hnone]
    · have hne : q.1 ≠ p.1 := fun heq => hq (List.mem_map.2 ⟨p, hp, heq.symm⟩)
      rw [List.filter_cons_of_neg (by simpa using hne), filter_path_eq_singleton hd hp]

/-- The facts about references that an artifact states are those of its unit. -/
theorem references_of_parsed {p : StaleArtifact × CompilationUnit} (hd : b.paths.Nodup)
    (hp : p ∈ b.parsed) :
    (L.merge b touched).references.filter (·.artifact = p.1.artifact.path) =
      p.2.referenceFacts p.1.artifact.path := by
  have hmerged : (p.1.artifact.path, p.2) ∈ b.merged := List.mem_map_of_mem hp
  have hold : (L.references.filter fun f => f.artifact ∉ b.paths).filter
      (·.artifact = p.1.artifact.path) = [] := by
    refine List.filter_eq_nil_iff.2 fun f hf heq => ?_
    have hout : f.artifact ∉ b.paths := of_decide_eq_true (List.mem_filter.1 hf).2
    rw [of_decide_eq_true heq] at hout
    exact hout (b.mem_paths_of_merged hmerged)
  have hsaid (q : String × CompilationUnit) : ∀ f ∈ q.2.referenceFacts q.1, f.artifact = q.1 := by
    intro f hf
    obtain ⟨r, -, rfl⟩ := List.mem_map.1 hf
    rfl
  have hown : b.merged.filter (·.1 = p.1.artifact.path) = [(p.1.artifact.path, p.2)] :=
    filter_path_eq_singleton (b.merged_nodup hd) hmerged
  rw [references_merge, List.filter_append, hold, List.nil_append,
    filter_said hsaid (fun path => path = p.1.artifact.path), hown, List.flatMap_singleton]

end Ledger

/-! ## The store after the merge -/

namespace Contents

/-- Nothing in the store comes from the artifact at the path. -/
structure Silent (c : Contents) (path : String) : Prop where
  record : ¬c.Indexed path
  dependencies : ∀ r ∈ c.dependencies, c.filePath? r.artifactId ≠ some path
  declarations : ∀ r ∈ c.declarations, c.filePath? r.artifactId ≠ some path
  references : ∀ r ∈ c.references, c.filePath? r.artifactId ≠ some path
  parameters : ∀ r ∈ c.parameters, c.filePath? r.artifactId ≠ some path

/-- The artifact is recorded as it was read, and all that its unit says is in the store. -/
structure Merged (c : Contents) (st : StaleArtifact) (u : CompilationUnit) : Prop where
  recorded : c.Recorded st.artifact.path st.mtime u.checksum
  dependencies : ∀ d ∈ u.dependencies, ∃ r ∈ c.dependencies,
    c.filePath? r.artifactId = some st.artifact.path ∧ c.filePath? r.fileId = some d.path
  declarations : ∀ d ∈ u.owned, c.Knows d.key
  references : List.Forall₂ (fun r => c.names.ReferenceReads r.toReferenceRecord)
    (c.references.filter fun r => c.filePath? r.artifactId = some st.artifact.path)
    (u.referenceFacts st.artifact.path)
  parameters : ∀ p ∈ u.ownParameters, ∃ r ∈ c.parameters,
    c.names.key? r.ownerId = some p.owner ∧ r.ordinal = p.ordinal

variable {c : Contents} {L : Ledger}

theorem Mirrors.silent (h : c.Mirrors L) (hrecorded : L.Recorded) {path : String}
    (hpath : ¬L.Records path) : c.Silent path where
  record hex := hpath (h.indexed_iff.1 hex)
  dependencies r hr hp := by
    obtain ⟨f, hf, hreads⟩ := exists_right_of_forall₂ h.dependencies hr
    exact hpath (Option.some.inj (hreads.artifact.symm.trans hp) ▸ hrecorded.dependencies f hf)
  declarations r hr hp := by
    obtain ⟨f, hf, hreads⟩ := exists_right_of_forall₂ h.claims hr
    exact hpath (Option.some.inj (hreads.artifact.symm.trans hp) ▸ hrecorded.claims f hf)
  references r hr hp := by
    obtain ⟨f, hf, hreads⟩ := exists_right_of_forall₂ h.references hr
    exact hpath (Option.some.inj (hreads.artifact.symm.trans hp) ▸ hrecorded.references f hf)
  parameters r hr hp := by
    obtain ⟨f, hf, hreads⟩ := exists_right_of_forall₂ h.parameters hr
    exact hpath (Option.some.inj (hreads.artifact.symm.trans hp) ▸ hrecorded.parameters f hf)

/-- **Each artifact that was read is recorded, and all that its unit says is in the store.** -/
theorem Mirrors.merged {b : ReadBatch} {touched : List (String × Int)} (h : c.Mirrors (L.merge b touched))
    (hclaimed : (L.merge b touched).Claimed) (hd : b.paths.Nodup)
    {p : StaleArtifact × CompilationUnit} (hp : p ∈ b.parsed) : c.Merged p.1 p.2 where
  recorded := h.recorded_iff.2 ⟨_, Ledger.mem_artifacts_of_parsed hd hp, rfl, rfl, rfl⟩
  dependencies d hdep := by
    obtain ⟨f, hf, hslot⟩ := Ledger.dependency_of_parsed hd hp hdep
    obtain ⟨hartifact, hpath⟩ := Prod.mk.inj hslot
    obtain ⟨r, hr, hreads⟩ := exists_left_of_forall₂ h.dependencies hf
    exact ⟨r, hr, hartifact ▸ hreads.artifact, hpath ▸ hreads.path⟩
  declarations d hmem := by
    have hisClaimed : (L.merge b touched).isClaimed d.key :=
      Ledger.isClaimed_of_parsed hd hp ⟨d, hmem, rfl⟩
    obtain ⟨f, hf, hkey⟩ := List.any_eq_true.1 hisClaimed
    exact (h.knows_iff_claimed hclaimed).2 ⟨f, hf, of_decide_eq_true hkey⟩
  references := by
    have hfacts : (L.merge b touched).references.filter (·.artifact = p.1.artifact.path) =
        p.2.referenceFacts p.1.artifact.path := Ledger.references_of_parsed hd hp
    rw [← hfacts]
    refine forall₂_filter h.references fun r f hreads => ?_
    have hartifact : c.filePath? r.artifactId = some f.artifact := hreads.artifact
    rw [hartifact]
    exact decide_eq_decide.2 Option.some_inj
  parameters q hq := by
    obtain ⟨f, hf, hslot⟩ := Ledger.parameter_of_parsed hd hp hq
    obtain ⟨howner, hordinal⟩ := Prod.mk.inj hslot
    obtain ⟨r, hr, hreads⟩ := exists_left_of_forall₂ h.parameters hf
    exact ⟨r, hr, howner ▸ hreads.owner, hreads.ordinal.trans hordinal⟩

end Contents

end Crossref
