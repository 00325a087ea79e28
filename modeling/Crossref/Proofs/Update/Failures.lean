/-
What takes a whole update down. An artifact that is refused is reported and left out;
all others are merged. Only a numeral that cannot be read, a number of a unit that does
not fit into a word, or the want of ids stops the update, and then nothing of it stays.
Nothing else in the content of a file does.
-/
import Crossref.Proofs.Update.Attempts

namespace Crossref.Update

open StoreM Contents

variable {t : FileTree} {files : List ArtifactFile}

/-! ## Plans for files that can be opened -/

/-- The artifact is a file that can be opened. -/
structure Present (t : FileTree) (f : ArtifactFile) : Prop where
  resolves : Resolves t f
  opens : ∃ mtime content, t.Opens (artifactPath t f.path) mtime content

theorem present_iff {f : ArtifactFile} : Present t f ↔ Resolves t f ∧
    (t.stat (artifactPath t f.path)).isOk = true ∧ (t.read (artifactPath t f.path)).isOk = true := by
  rw [isOk_iff, isOk_iff]
  constructor
  · intro h
    obtain ⟨mtime, content, hopens⟩ := h.opens
    exact ⟨h.resolves, ⟨mtime, hopens.stat⟩, content, hopens.read⟩
  · intro h
    obtain ⟨hresolves, ⟨mtime, hstat⟩, content, hread⟩ := h
    exact ⟨hresolves, mtime, content, hstat, hread⟩

instance (t : FileTree) (f : ArtifactFile) : Decidable (Present t f) :=
  decidable_of_iff _ present_iff.symm

theorem mem_of_mem_distinct {f : ArtifactFile} (hf : f ∈ distinct files) : f ∈ files := by
  have hfold (files seen : List ArtifactFile)
      (hf : f ∈ files.foldl (fun seen f => if seen.any (·.path = f.path) then seen else seen ++ [f]) seen) :
      f ∈ seen ∨ f ∈ files := by
    induction files generalizing seen with
    | nil => exact .inl hf
    | cons g files ih =>
      rcases ih _ hf with hmem | hmem
      · beta_reduce at hmem
        split at hmem
        · exact .inl hmem
        · rcases List.mem_append.1 hmem with hmem | hmem
          · exact .inl hmem
          · exact .inr (List.mem_singleton.1 hmem ▸ List.mem_cons_self)
      · exact .inr (List.mem_cons_of_mem g hmem)
  exact (hfold files [] hf).resolve_left (by simp)

variable {stamps : Stamps} {includeRuntime : Bool}

theorem verdict_opens {a : ArtifactFile} {mtime : Int} {content : Text.Bytes}
    (h : t.Opens a.path mtime content) (e : FileError) :
    verdict t stamps includeRuntime a ≠ .unreadable e := by
  unfold verdict
  rw [h.stat, h.read]
  split
  · simp
  · split
    next hstat => cases hstat
    · simp
    · dsimp only
      split
      · simp
      · split <;> simp

/-- No file that can be opened is an error of the plan. -/
theorem planFor_errors (h : ∀ f ∈ files, ∃ mtime content, t.Opens f.path mtime content) :
    (planFor t stamps includeRuntime files).errors = [] := by
  have hfold (files : List ArtifactFile) (p : UpdatePlan) (hp : p.errors = [])
      (h : ∀ f ∈ files, ∃ mtime content, t.Opens f.path mtime content) :
      (files.foldl (fun plan a => addVerdict plan a (verdict t stamps includeRuntime a)) p).errors =
        [] := by
    induction files generalizing p with
    | nil => exact hp
    | cons f files ih =>
      obtain ⟨mtime, content, hopens⟩ := h f (by simp)
      have hadded : (addVerdict p f (verdict t stamps includeRuntime f)).errors = [] := by
        cases hv : verdict t stamps includeRuntime f with
        | unreadable e => exact absurd hv (verdict_opens hopens e)
        | runtime => exact hp
        | stale mtime isNew => exact hp
        | upToDate => exact hp
        | touched mtime => exact hp
      exact ih _ hadded fun g hg => h g (by simp [hg])
  exact hfold (distinct files) {} rfl fun f hf => h f (mem_of_mem_distinct hf)

theorem planFor_stale {st : StaleArtifact} (hst : st ∈ (planFor t stamps includeRuntime files).stale) :
    ∃ f ∈ files, f.path = st.artifact.path := by
  have hsub := stale_sublist (verdict t stamps includeRuntime) (distinct files) {}
  have hmem := hsub.subset (List.mem_map_of_mem hst)
  obtain ⟨f, hf, hpath⟩ := List.mem_map.1 hmem
  exact ⟨f, mem_of_mem_distinct hf, hpath⟩

/-- For files that can be opened the plan is made without an error. -/
theorem plan_present {s : Store} (hs : s.Idle) (hc : s.contents.Reached) (hfiles : ∀ f ∈ files, Present t f)
    (includeRuntime : Bool) :
    ∃ p, plan t files includeRuntime s = (.ok p, s) ∧ p.errors = [] ∧ p.Distinct ∧
      ∀ st ∈ p.stale, ∃ content, t.read st.artifact.path = .ok content := by
  have hlocated : ∀ f ∈ located t files, ∃ mtime content, t.Opens f.path mtime content := by
    intro _ hmem
    obtain ⟨f, hf, rfl⟩ := List.mem_map.1 hmem
    exact (hfiles f hf).opens
  refine ⟨planFor t s.contents.artifactStamps includeRuntime (located t files), ?_,
    planFor_errors hlocated, planFor_distinct t _ includeRuntime _, fun st hst => ?_⟩
  · rw [plan_apply hs.transaction hc.isIndex, mapM_locate_iff.2 ⟨fun f hf => (hfiles f hf).resolves, rfl⟩]
    rfl
  · obtain ⟨f, hf, hpath⟩ := planFor_stale hst
    obtain ⟨mtime, content, hopens⟩ := hlocated f hf
    exact ⟨content, hpath ▸ hopens.read⟩

/-! ## Merging what was read -/

variable {s : Store} {L : Ledger} {b : ReadBatch} {p : UpdatePlan} {cancel : Nat → Bool} {now : Int}

theorem apply_of_read (hread : readStale t cancel p.stale = .ok b) :
    apply t cancel now p s =
      match merge p b now s with
      | (.ok stats, s') => (.ok (stats, b.progress), s')
      | (.error e, s') => (.error e, s') := by
  unfold apply
  rw [hread]
  dsimp only
  rw [bind_apply]
  rcases merge p b now s with ⟨e | stats, s'⟩ <;> rfl

theorem apply_of_break {e : Failure} (hread : readStale t cancel p.stale = .error e) :
    apply t cancel now p s = (.error e, s) := by
  unfold apply
  rw [hread]
  rfl

/-- What a merge reports: the errors of the plan and the refusals, and how many units it merged. -/
theorem merge_reports (hs : s.Idle) (h : s.contents.Mirrors L) (hnamed : ∀ u ∈ b.units, u.Named)
    {stats : UpdateStats} (hok : (merge p b now s).1 = .ok stats) :
    stats.errors = p.errors ++ b.failed.map (·.2) ∧ stats.merged = b.parsed.length := by
  rw [merge_apply hs h hnamed] at hok
  rcases hr : mergeBatch b p.touched now s with ⟨e | counts, s'⟩ <;> rw [hr] at hok
  · cases hok
  · obtain rfl := Except.ok.inj hok
    refine ⟨rfl, ?_⟩
    have hle : b.parsed.countP (·.1.isNew) ≤ b.parsed.length := List.countP_le_length
    simp only [UpdateStats.merged, answer]
    omega

/-- **A merge of units whose numbers fit succeeds as long as there are ids.** -/
theorem merge_ok (hs : s.Idle) (h : s.contents.Mirrors L) (hnamed : ∀ u ∈ b.units, u.Named)
    (hfits : ∀ u ∈ b.units, u.Fits) (hroom : ¬s.contents.Lacks b.demand) :
    ∃ stats, (merge p b now s).1 = .ok stats := by
  have hrun := merge_runs hs h hnamed p now
  unfold Runs at hrun
  rcases hr : merge p b now s with ⟨e | stats, s'⟩
  · simp only [hr] at hrun
    obtain ⟨-, -, hrefused⟩ := hrun
    cases hrefused with
    | number unfit => exact absurd hfits unfit
    | room lacks => exact absurd lacks hroom
  · exact ⟨stats, rfl⟩

/-! ## One update -/

/-- Every numeral of the artifact can be read, and the numbers of its unit fit into a word. -/
def NumbersFit (t : FileTree) (st : StaleArtifact) : Prop :=
  ∃ outcome, readArtifact t st.artifact.path = .ok outcome ∧ ∀ u, outcome = .ok u → u.Fits

instance (t : FileTree) (st : StaleArtifact) : Decidable (NumbersFit t st) :=
  match h : readArtifact t st.artifact.path with
  | .error _ => .isFalse fun ⟨_, ho, _⟩ => nomatch h.symm.trans ho
  | .ok (.error _) => .isTrue ⟨_, h, nofun⟩
  | .ok (.ok u) =>
    decidable_of_iff u.Fits
      ⟨fun hu => ⟨_, h, fun _ hv => Except.ok.inj hv ▸ hu⟩,
        fun ⟨_, ho, hu⟩ => hu u (Except.ok.inj (ho.symm.trans h))⟩

/-- The units of the artifacts that can be read. -/
def unitsOf (t : FileTree) (stale : List StaleArtifact) : List CompilationUnit :=
  (stale.filterMap (unit? t)).map (·.2)

theorem mem_unitsOf {stale : List StaleArtifact} {u : CompilationUnit} :
    u ∈ unitsOf t stale ↔ ∃ st ∈ stale, readArtifact t st.artifact.path = .ok (.ok u) := by
  simp only [unitsOf, List.mem_map, List.mem_filterMap, unit?_eq_some]
  constructor
  · intro h
    obtain ⟨⟨_, _⟩, ⟨st, hst, -, hread⟩, rfl⟩ := h
    exact ⟨st, hst, hread⟩
  · intro h
    obtain ⟨st, hst, hread⟩ := h
    exact ⟨(st, u), ⟨st, hst, rfl, hread⟩, rfl⟩

theorem fits_unitsOf {stale : List StaleArtifact} (h : ∀ st ∈ stale, NumbersFit t st) :
    ∀ u ∈ unitsOf t stale, u.Fits := by
  intro u hu
  obtain ⟨st, hst, hread⟩ := mem_unitsOf.1 hu
  obtain ⟨outcome, hread', hfits⟩ := h st hst
  exact hfits u (Except.ok.inj (hread'.symm.trans hread))

/-- What the answer of an update and the store after it say of the artifacts that were attempted. -/
structure Settles (t : FileTree) (attempted : List StaleArtifact) (stats : UpdateStats) (c : Contents) :
    Prop where
  read : ∀ st ∈ attempted, ∃ outcome, readArtifact t st.artifact.path = .ok outcome
  /-- Each refusal is reported once, and nothing else is. -/
  errors : stats.errors = (attempted.filterMap (refusal? t)).map (·.2)
  merged : stats.merged = (unitsOf t attempted).length
  units : ∀ st ∈ attempted, ∀ u, readArtifact t st.artifact.path = .ok (.ok u) → c.Merged st u
  refused : ∀ st ∈ attempted, ∀ e, readArtifact t st.artifact.path = .ok (.error e) →
    e.path = st.artifact.path ∧ e.kind = .parse ∧ c.Silent st.artifact.path

theorem untilCancelled_never (h : ∀ i, cancel i = false) :
    ∀ (i : Nat) (stale : List StaleArtifact), untilCancelled cancel i stale = stale
  | _, [] => rfl
  | i, st :: rest => by
    rw [untilCancelled, h i, untilCancelled_never h (i + 1) rest]
    rfl

/-- Artifacts that were read settle if the update goes well. -/
theorem settles_of_read (hs : s.Idle) {batches : List ReadBatch} (hL : Ledger.Merges batches L)
    (h : s.contents.Mirrors L) (hd : p.Distinct) (herrors : p.errors = [])
    (hopens : ∀ st ∈ p.stale, ∃ content, t.read st.artifact.path = .ok content)
    (hread : ∀ st ∈ untilCancelled cancel 0 p.stale,
      ∃ outcome, readArtifact t st.artifact.path = .ok outcome)
    (hb : readStale t cancel p.stale = .ok b)
    (hparsed : b.parsed = (untilCancelled cancel 0 p.stale).filterMap (unit? t))
    (hfailed : b.failed = (untilCancelled cancel 0 p.stale).filterMap (refusal? t))
    {stats : UpdateStats} {s' : Store} (hok : merge p b now s = (.ok stats, s')) :
    Settles t (untilCancelled cancel 0 p.stale) stats s'.contents := by
  have hnamed := readStale_named hb
  have hnodup : b.paths.Nodup := readStale_distinct hb hd
  have hrun := merge_runs hs h hnamed p now
  unfold Runs at hrun
  rw [hok] at hrun
  obtain ⟨-, hm, -, -⟩ := hrun
  have hmerges : Ledger.Merges (batches ++ [b]) (L.merge b p.touched) := hL.snoc
  have hanswer : (merge p b now s).1 = .ok stats := by rw [hok]
  obtain ⟨hreported, hmerged⟩ := merge_reports hs h hnamed hanswer
  refine ⟨hread, ?_, ?_, fun st hst u hu => ?_, fun st hst e he => ?_⟩
  · rw [hreported, herrors, hfailed, List.nil_append]
  · rw [hmerged, hparsed, unitsOf, List.length_map]
  · have hmem : (st, u) ∈ b.parsed :=
      hparsed ▸ List.mem_filterMap.2 ⟨st, hst, unit?_eq_some.2 ⟨rfl, hu⟩⟩
    exact hm.merged hmerges.claimed hnodup hmem
  · obtain ⟨content, hcontent⟩ := hopens st ((untilCancelled_sublist cancel 0 p.stale).subset hst)
    obtain ⟨hpath, hkind⟩ := refusal_of_opens hcontent he
    have hmem : (st, e) ∈ b.failed :=
      hfailed ▸ List.mem_filterMap.2 ⟨st, hst, refusal?_eq_some.2 ⟨rfl, he⟩⟩
    exact ⟨hpath, hkind, hm.silent hmerges.recorded (Ledger.not_records_of_failed hnodup hmem)⟩

/-- **Only a number or the want of ids takes an update down.** For files that can be opened the plan
is made without an error. The update returns if the numbers of the attempted artifacts fit and no counter
lacks ids, and then each artifact that is refused is reported once and leaves nothing, and all others
are merged and recorded. It fails if some attempted artifact has a number that does not fit. An
update that fails changes nothing. -/
theorem batch_outcome (hs : s.Idle) (hc : s.contents.Reached) (hfiles : ∀ f ∈ files, Present t f)
    (includeRuntime : Bool) (cancel : Nat → Bool) (now : Int) :
    ∃ p, plan t files includeRuntime s = (.ok p, s) ∧ p.errors = [] ∧ p.Distinct ∧
      let attempted := untilCancelled cancel 0 p.stale
      let r := apply t cancel now p s
      ((∀ i, cancel i = false) → attempted = p.stale) ∧
        ((∀ st ∈ attempted, NumbersFit t st) →
          ¬s.contents.Lacks ((unitsOf t attempted).map (·.demand)).sum → ∃ answer, r.1 = .ok answer) ∧
        ((∃ st ∈ attempted, ¬NumbersFit t st) → ∃ e, r.1 = .error e) ∧
        (∀ e, r.1 = .error e → r.2.contents = s.contents) ∧
        ∀ stats progress, r.1 = .ok (stats, progress) → Settles t attempted stats r.2.contents := by
  obtain ⟨L, batches, hL, hm⟩ : ∃ L batches, Ledger.Merges batches L ∧ s.contents.Mirrors L := by
    obtain ⟨path, steps, hstore⟩ := hc
    obtain ⟨L, hL, hm⟩ := (History.run_sound path steps).mirrors
    exact ⟨L, _, hL, hstore ▸ hm⟩
  obtain ⟨p, hplan, herrors, hdistinct, hopens⟩ := plan_present hs hc hfiles includeRuntime
  refine ⟨p, hplan, herrors, hdistinct, fun hnever => untilCancelled_never hnever 0 p.stale, ?_⟩
  by_cases hread : ∀ st ∈ untilCancelled cancel 0 p.stale,
      ∃ outcome, readArtifact t st.artifact.path = .ok outcome
  · obtain ⟨b, hb, hparsed, hfailed⟩ : ∃ b, readStale t cancel p.stale = .ok b ∧
        b.parsed = (untilCancelled cancel 0 p.stale).filterMap (unit? t) ∧
        b.failed = (untilCancelled cancel 0 p.stale).filterMap (refusal? t) := by
      obtain ⟨b, hb, hparsed, hfailed, -⟩ := readFrom_outcomes hread
      exact ⟨b, hb, hparsed, hfailed⟩
    have hnamed := readStale_named hb
    have hunits : b.units = unitsOf t (untilCancelled cancel 0 p.stale) := by
      rw [ReadBatch.units, hparsed, unitsOf]
    have hrun := merge_runs hs hm hnamed p now
    unfold Runs at hrun
    rw [apply_of_read hb]
    rcases hr : merge p b now s with ⟨e | stats, s'⟩
    · rw [hr] at hrun
      refine ⟨fun hfit hroom => ?_, fun _ => ⟨e, rfl⟩, fun _ _ => hrun.2.1, fun _ _ hok => ?_⟩
      · have hroom : ¬s.contents.Lacks b.demand := by rwa [ReadBatch.demand, hunits]
        obtain ⟨stats, hok⟩ : ∃ stats, (merge p b now s).1 = .ok stats :=
          merge_ok hs hm hnamed (hunits ▸ fits_unitsOf hfit) hroom
        rw [hr] at hok
        cases hok
      · cases hok
    · refine ⟨fun _ _ => ⟨_, rfl⟩, fun hex => ?_, fun _ he => ?_, fun _ _ hok => ?_⟩
      · obtain ⟨st, hst, hunfit⟩ := hex
        obtain ⟨outcome, houtcome⟩ := hread st hst
        rw [hr] at hrun
        refine absurd ⟨outcome, houtcome, fun u hu => hrun.2.2.2 u ?_⟩ hunfit
        exact hunits ▸ mem_unitsOf.2 ⟨st, hst, hu ▸ houtcome⟩
      · cases he
      · obtain ⟨rfl, -⟩ := Prod.mk.inj (Except.ok.inj hok)
        exact settles_of_read hs hL hm hdistinct herrors hopens hread hb hparsed hfailed hr
  · push Not at hread
    obtain ⟨st, hst, hbreaks⟩ := hread
    have hbreak : ∃ e, readStale t cancel p.stale = .error e := by
      cases houtcome : readArtifact t st.artifact.path with
      | ok outcome => exact absurd houtcome (hbreaks outcome)
      | error e => exact readFrom_breaks houtcome hst
    obtain ⟨e, he⟩ := hbreak
    rw [apply_of_break he]
    refine ⟨fun hfit _ => ?_, fun _ => ⟨e, rfl⟩, fun _ _ => rfl, fun _ _ hok => ?_⟩
    · obtain ⟨outcome, houtcome, -⟩ := hfit st hst
      exact absurd houtcome (hbreaks outcome)
    · cases hok

end Crossref.Update

namespace Crossref

/-! ## Numbers that do not fit -/

namespace Overflow

open Update

def good : String :=
  "V \"1\"\nU v%b v.adb 00000000\nD v.adb 20240101000000 00000000\nX 1 v.adb\n1V1*F\n"

/-- The section does not say its dependency by a number. -/
def unnumbered : String :=
  "V \"1\"\nU w%b w.adb 00000000\nD w.adb 20240101000000 00000000\nX one w.adb\n1V1*G\n"

/-- The line of the function does not fit into a word. -/
def long : String :=
  "V \"1\"\nU w%b w.adb 00000000\nD w.adb 20240101000000 00000000\nX 1 w.adb\n9223372036854775808V1*G\n"

/-- The section is about a dependency that is not there. -/
def dangling : String :=
  "V \"1\"\nU w%b w.adb 00000000\nD w.adb 20240101000000 00000000\nX 2 w.adb\n1V1*G\n"

/-- Two artifacts; the second one says `text`. -/
def tree (text : String) : FileTree where
  cwd := ["t"]
  nodes := [(["t"], .directory), (["t", "a.ali"], .bytes good.toUTF8.toList 1),
    (["t", "b.ali"], .bytes text.toUTF8.toList 2)]

def files : List ArtifactFile :=
  [{ path := "a.ali" }, { path := "b.ali" }]

def store : Store :=
  (History.start "s").store

/-- Both artifacts are stale. -/
def both : UpdatePlan where
  stale := [⟨{ path := "/t/a.ali" }, 1, true⟩, ⟨{ path := "/t/b.ali" }, 2, true⟩]

/-- The numbers of the second artifact take the update down, and the first one is not recorded. -/
theorem number_aborts :
    store.contents.Reached ∧
      (∀ text ∈ [unnumbered, long], (∀ f ∈ files, Present (tree text) f) ∧
        (plan (tree text) files true store).1.toOption = some both ∧
        (apply (tree text) (fun _ => false) 3 both store).2.contents.artifacts = []) ∧
      (apply (tree unnumbered) (fun _ => false) 3 both store).1.map (·.2) =
        .error (.numeral (.malformed "one")) ∧
      (apply (tree long) (fun _ => false) 3 both store).1.map (·.2) = .error .integerRange :=
  ⟨⟨"s", [], rfl⟩, by decide +kernel, by decide +kernel, by decide +kernel⟩

/-- Beside an artifact that is refused the other one is merged. -/
theorem merged_beside_refused :
    ∃ stats progress, (apply (tree dangling) (fun _ => false) 3 both store).1 = .ok (stats, progress) ∧
      Settles (tree dangling) both.stale stats
        (apply (tree dangling) (fun _ => false) 3 both store).2.contents := by
  have hidle : store.Idle := (History.run_sound "s" []).idle
  have hpresent : ∀ f ∈ files, Present (tree dangling) f := by decide +kernel
  obtain ⟨p, hplan, -, -, hall, hok, -, -, hsettles⟩ :=
    batch_outcome hidle ⟨"s", [], rfl⟩ hpresent true (fun _ => false) 3
  have hplanned : (plan (tree dangling) files true store).1.toOption = some both := by decide +kernel
  obtain rfl : p = both := by
    rw [hplan] at hplanned
    exact Option.some.inj hplanned
  rw [hall fun _ => rfl] at hok hsettles
  obtain ⟨⟨stats, progress⟩, hanswer⟩ := hok (by decide +kernel) (by decide +kernel)
  exact ⟨stats, progress, hanswer, hsettles stats progress hanswer⟩

end Overflow

end Crossref
