/-
What becomes of every file that is listed. A plan puts each into one list; the update
that carries it out reads the stale ones from the front until it is cancelled, and
answers how many were added, updated, refused and left. Nobody is left out and nobody
is counted twice, and of what was left the store keeps what it had.
-/
import Crossref.Proofs.Update.Attempts
import Crossref.Proofs.Update.Calls
import Crossref.Proofs.Update.Spared

namespace Crossref

namespace Update

variable {t : FileTree} {cancel : Nat → Bool} {total : Nat}

/-! ## What is read -/

/-- The artifacts that are read are the first ones. -/
theorem untilCancelled_eq_take (cancel : Nat → Bool) : ∀ (stale : List StaleArtifact) (i : Nat),
    ∃ k ≤ stale.length, untilCancelled cancel i stale = stale.take k ∧ (∀ j < k, cancel (i + j) = false) ∧
      (k < stale.length → cancel (i + k) = true)
  | [], _ => ⟨0, Nat.le_refl 0, rfl, nofun, nofun⟩
  | st :: rest, i => by
    unfold untilCancelled
    cases hc : cancel i with
    | true => exact ⟨0, Nat.zero_le _, rfl, nofun, fun _ => hc⟩
    | false =>
      obtain ⟨k, hk, heq, hbefore, hat⟩ := untilCancelled_eq_take cancel rest (i + 1)
      refine ⟨k + 1, Nat.succ_le_succ hk, ?_, fun j hj => ?_, fun hlt => ?_⟩
      · rw [heq]
        rfl
      · cases j with
        | zero => exact hc
        | succ j => rw [Nat.add_succ, ← Nat.succ_add]; exact hbefore j (Nat.lt_of_succ_lt_succ hj)
      · rw [Nat.add_succ, ← Nat.succ_add]
        exact hat (Nat.lt_of_succ_lt_succ hlt)

theorem readFrom_progress {b : ReadBatch} : ∀ {stale : List StaleArtifact} {i : Nat},
    readFrom t cancel total i stale = .ok b → b.progress = reportsFrom total i (untilCancelled cancel i stale)
  | [], i, h => by
    obtain rfl := Except.ok.inj h
    rfl
  | st :: rest, i, h => by
    unfold untilCancelled
    cases hc : cancel i with
    | true =>
      rw [readFrom_stop hc] at h
      obtain rfl := Except.ok.inj h
      rfl
    | false =>
      rw [readFrom_step hc] at h
      cases hread : readArtifact t st.artifact.path with
      | error e => simp [hread] at h
      | ok outcome =>
        cases hrest : readFrom t cancel total (i + 1) rest with
        | error e => simp [hread, hrest] at h
        | ok batch =>
          simp only [hread, hrest, Except.ok.injEq] at h
          rw [← h, progress_addRead, readFrom_progress hrest]
          rfl

/-- What is read comes out as a unit or as a refusal. -/
theorem length_units_add_refusals : ∀ {attempted : List StaleArtifact},
    (∀ st ∈ attempted, ∃ outcome, readArtifact t st.artifact.path = .ok outcome) →
      (attempted.filterMap (unit? t)).length + (attempted.filterMap (refusal? t)).length = attempted.length
  | [], _ => rfl
  | st :: rest, h => by
    obtain ⟨⟨outcome, hread⟩, hrest⟩ := List.forall_mem_cons.1 h
    have ih := length_units_add_refusals hrest
    cases outcome with
    | ok u =>
      simp only [List.filterMap_cons, unit?, refusal?, hread, List.length_cons]
      omega
    | error e =>
      simp only [List.filterMap_cons, unit?, refusal?, hread, List.length_cons]
      omega

/-- The reading that succeeds has read the first artifacts and counted the others. -/
theorem readStale_accounts {stale : List StaleArtifact} {b : ReadBatch} (h : readStale t cancel stale = .ok b) :
    ∃ k ≤ stale.length, (∀ j < k, cancel j = false) ∧ (k < stale.length → cancel k = true) ∧
      (∀ st ∈ stale.take k, ∃ outcome, readArtifact t st.artifact.path = .ok outcome) ∧
      b.parsed = (stale.take k).filterMap (unit? t) ∧ b.failed = (stale.take k).filterMap (refusal? t) ∧
      b.cancelled = stale.length - k ∧ b.progress = reportsFrom stale.length 0 (stale.take k) := by
  obtain ⟨k, hk, htake, hbefore, hat⟩ := untilCancelled_eq_take cancel stale 0
  simp only [Nat.zero_add] at hbefore hat
  have houtcomes : ∀ st ∈ untilCancelled cancel 0 stale,
      ∃ outcome, readArtifact t st.artifact.path = .ok outcome := by
    intro st hst
    cases hread : readArtifact t st.artifact.path with
    | ok outcome => exact ⟨outcome, rfl⟩
    | error e =>
      obtain ⟨e', he⟩ : ∃ e', readFrom t cancel stale.length 0 stale = .error e' := readFrom_breaks hread hst
      rw [readStale, he] at h
      cases h
  have hprogress := readFrom_progress h
  obtain ⟨b', hb', hparsed, hfailed, hcancelled⟩ := readFrom_outcomes houtcomes
  obtain rfl : b' = b := Except.ok.inj (hb'.symm.trans h)
  rw [htake] at houtcomes hprogress hparsed hfailed hcancelled
  rw [List.length_take_of_le hk] at hcancelled
  exact ⟨k, hk, hbefore, hat, houtcomes, hparsed, hfailed, by omega, hprogress⟩

theorem mem_of_attempted {attempted : List StaleArtifact} {b : ReadBatch}
    (hparsed : b.parsed = attempted.filterMap (unit? t)) (hfailed : b.failed = attempted.filterMap (refusal? t))
    {st : StaleArtifact} (h : st ∈ b.attempted) : st ∈ attempted := by
  rcases List.mem_append.1 h with h | h
  · obtain ⟨q, hq, rfl⟩ := List.mem_map.1 h
    rw [hparsed] at hq
    obtain ⟨st, hst, hunit⟩ := List.mem_filterMap.1 hq
    rwa [(unit?_eq_some.1 hunit).1]
  · obtain ⟨q, hq, rfl⟩ := List.mem_map.1 h
    rw [hfailed] at hq
    obtain ⟨st, hst, hrefusal⟩ := List.mem_filterMap.1 hq
    rwa [(refusal?_eq_some.1 hrefusal).1]

/-! ## What is answered -/

variable {s s' : Store} {p : UpdatePlan} {b : ReadBatch} {now : Int} {stats : UpdateStats}

theorem merge_answers (h : merge p b now s = (.ok stats, s')) : ∃ counts all, stats = answer p b counts all := by
  unfold merge at h
  rw [StoreM.get_apply] at h
  obtain ⟨counts, s₁, -, h⟩ := StoreM.bind_answers h
  obtain ⟨all, s₂, -, h⟩ := StoreM.bind_answers h
  exact ⟨counts, all, (Except.ok.inj (Prod.mk.inj h).1).symm⟩

theorem apply_answers {reports : List Progress} (h : apply t cancel now p s = (.ok (stats, reports), s')) :
    ∃ b, readStale t cancel p.stale = .ok b ∧ merge p b now s = (.ok stats, s') ∧ reports = b.progress := by
  unfold apply at h
  cases hread : readStale t cancel p.stale with
  | error e =>
    rw [hread] at h
    cases h
  | ok b =>
    rw [hread] at h
    obtain ⟨answer, s₁, hmerge, h⟩ := StoreM.bind_answers h
    obtain ⟨hok, rfl⟩ := Prod.mk.inj h
    obtain ⟨rfl, rfl⟩ := Prod.mk.inj (Except.ok.inj hok)
    exact ⟨b, rfl, hmerge, rfl⟩

end Update

/-! ## Accounts -/

/-- What an update answers and leaves that carried out the plan for the first `k` stale artifacts. -/
structure UpdatePlan.CarriedOut (t : FileTree) (cancel : Nat → Bool) (files : List ArtifactFile) (p : UpdatePlan)
    (k : Nat) (stats : UpdateStats) (reports : List Progress) (c c' : Contents) : Prop where
  bound : k ≤ p.stale.length
  goesOn : ∀ j < k, cancel j = false
  stops : k < p.stale.length → cancel k = true
  reports : reports = Update.reportsFrom p.stale.length 0 (p.stale.take k)
  read : ∀ st ∈ p.stale.take k, ∃ outcome, Update.readArtifact t st.artifact.path = .ok outcome
  added : stats.added = ((p.stale.take k).filterMap (Update.unit? t)).countP (·.1.isNew)
  merged : stats.added + stats.updated = ((p.stale.take k).filterMap (Update.unit? t)).length
  errors : stats.errors = p.errors ++ ((p.stale.take k).filterMap (Update.refusal? t)).map (·.2)
  cancelled : stats.cancelled = p.stale.length - k
  upToDate : stats.upToDate = p.upToDate.length
  runtimeSkipped : stats.runtimeSkipped = p.runtimeSkipped.length
  stale : stats.added + stats.updated + ((p.stale.take k).filterMap (Update.refusal? t)).length + stats.cancelled =
    p.stale.length
  total : stats.added + stats.updated + stats.upToDate + stats.runtimeSkipped + stats.cancelled +
    stats.errors.length = (Update.mentioned t files).length
  /-- Of the artifacts that were not read the store keeps what it had. -/
  spared : ∀ st ∈ p.stale.drop k, ∀ id, c.fileId? st.artifact.path = some id →
    c'.fileId? st.artifact.path = some id ∧ Contents.Spared id c c'

namespace UpdatePlan.Accounts

variable {t : FileTree} {c : Contents} {includeRuntime : Bool} {files : List ArtifactFile} {p : UpdatePlan}

theorem length_eq (h : p.Accounts t c includeRuntime files) :
    p.stale.length + p.upToDate.length + p.runtimeSkipped.length + p.errors.length =
      (Update.mentioned t files).length := by
  have hlength := h.once.length_eq
  simp only [List.length_append, List.length_map] at hlength
  exact hlength

/-- Stale artifacts further back have other paths. -/
theorem path_ne_of_take (h : p.Accounts t c includeRuntime files) {k : Nat} {st st' : StaleArtifact}
    (hst : st ∈ p.stale.take k) (hst' : st' ∈ p.stale.drop k) : st.artifact.path ≠ st'.artifact.path := by
  have hnodup := h.nodup.sublist h.stale
  rw [← List.take_append_drop k p.stale, List.map_append] at hnodup
  exact (List.nodup_append.1 hnodup).2.2 _ (List.mem_map_of_mem hst) _ (List.mem_map_of_mem hst')

/-- What is touched is not stale. -/
theorem path_ne_of_touched (h : p.Accounts t c includeRuntime files) {q : String × Int} {st : StaleArtifact}
    (hq : q ∈ p.touched) (hst : st ∈ p.stale) : q.1 ≠ st.artifact.path := by
  have hnodup := h.once.nodup_iff.2 h.nodup
  rw [List.append_assoc, List.append_assoc] at hnodup
  have hupToDate : q.1 ∈ p.upToDate := h.touched.subset (List.mem_map_of_mem hq)
  exact ((List.nodup_append.1 hnodup).2.2 _ (List.mem_map_of_mem hst) _ (List.mem_append_left _ hupToDate)).symm

end UpdatePlan.Accounts

namespace Update

variable {t : FileTree} {files : List ArtifactFile} {includeRuntime : Bool} {p : UpdatePlan} {s s' : Store}

/-- **An update that returns has carried out its plan from the front.** -/
theorem apply_carriedOut (h : p.Accounts t s.contents includeRuntime files) (hk : s.contents.Keyed)
    {cancel : Nat → Bool} {now : Int} {stats : UpdateStats} {reports : List Progress}
    (happly : apply t cancel now p s = (.ok (stats, reports), s')) :
    ∃ k, p.CarriedOut t cancel files k stats reports s.contents s'.contents := by
  obtain ⟨b, hread, hmerge, rfl⟩ := apply_answers happly
  obtain ⟨k, hbound, hgoesOn, hstops, houtcomes, hparsed, hfailed, hcancelled, hprogress⟩ :=
    readStale_accounts hread
  obtain ⟨counts, all, rfl⟩ := merge_answers hmerge
  have hcounted := length_units_add_refusals houtcomes
  rw [List.length_take_of_le hbound] at hcounted
  have hisNew : b.parsed.countP (·.1.isNew) ≤ b.parsed.length := List.countP_le_length
  have hmerged : b.parsed.countP (·.1.isNew) + (b.parsed.length - b.parsed.countP (·.1.isNew)) =
      ((p.stale.take k).filterMap (unit? t)).length := by
    rw [← hparsed]
    omega
  have hall := h.length_eq
  refine ⟨k, ?_⟩
  constructor
  · exact hbound
  · exact hgoesOn
  · exact hstops
  · exact hprogress
  · exact houtcomes
  · rw [← hparsed]
    rfl
  · exact hmerged
  · rw [← hfailed]
    rfl
  · exact hcancelled
  · rfl
  · rfl
  · dsimp only [answer]
    omega
  · dsimp only [answer]
    rw [List.length_append, List.length_map, hfailed]
    omega
  · intro st hst id hid
    have hattempted : ∀ st' ∈ b.attempted, st'.artifact.path ≠ st.artifact.path := by
      intro st' hst'
      exact h.path_ne_of_take (mem_of_attempted hparsed hfailed hst') hst
    have htouched : ∀ q ∈ p.touched, q.1 ≠ st.artifact.path := fun q hq =>
      h.path_ne_of_touched hq (List.mem_of_mem_drop hst)
    obtain ⟨⟨hfile, hspared⟩, -⟩ := merge_spares hattempted htouched _ _ _ (hk.isFile hid) hmerge
    exact ⟨hfile.fileId?, hspared⟩

end Update

end Crossref

namespace Crossref.Mixed

open Update

/-- The unit of a file, which declares nothing. -/
def naming (name : String) : String :=
  "V \"1\"\nU " ++ name ++ "%b " ++ name ++ ".adb 00000000\n"

def file (name text : String) (mtime : Int) : Place × Node :=
  (["t", name], .bytes text.toUTF8.toList mtime)

/-- The artifacts as they were indexed. -/
def before : FileTree where
  cwd := ["t"]
  nodes := [(["t"], .directory), file "a.ali" (naming "a") 1, file "b.ali" (naming "b") 1,
    file "e.ali" (naming "e") 1]

def indexed : UpdateStep where
  files := before
  cancel _ := false
  now := 1
  plan := { stale := ["/t/a.ali", "/t/b.ali", "/t/e.ali"].map fun path => ⟨{ path }, 1, true⟩ }

def store : Store :=
  (History.run "s" [indexed]).store

/-- One artifact has another time, one has another content, and two are new, of which one cannot be read. A link
leads from the directory to itself. -/
def after : FileTree where
  cwd := ["t"]
  nodes := [(["t"], .directory), file "a.ali" (naming "a") 1, file "b.ali" (naming "b") 2,
    file "c.ali" (naming "c") 2, file "d.ali" "?" 1, file "e.ali" (naming "f") 2]
  links := [(["t", "here"], Path.ofString "../t")]

def files : List ArtifactFile :=
  [{ path := "here/a.ali" }, { path := "/t/a.ali", runtime := true }, { path := "b.ali" },
    { path := "r.ali", runtime := true }, { path := "r.ali" }, { path := "c.ali" }, { path := "f.ali" },
    { path := "./d.ali" }, { path := "e.ali" }]

def planned : UpdatePlan where
  stale := [⟨{ path := "/t/c.ali" }, 2, true⟩, ⟨{ path := "/t/d.ali" }, 1, true⟩,
    ⟨{ path := "/t/e.ali" }, 2, false⟩]
  upToDate := ["/t/a.ali", "/t/b.ali"]
  touched := [("/t/b.ali", 2)]
  runtimeSkipped := ["/t/r.ali"]
  errors := [.ofPath "/t/f.ali" ⟨.notFound, "/t/f.ali"⟩]

/-- The same with a link that leads to itself. -/
def looping : FileTree :=
  { after with links := (["t", "loop.ali"], Path.ofString "loop.ali") :: after.links }

def withLoop : List ArtifactFile :=
  files ++ [{ path := "loop.ali" }]

/-- Writes down its calls, cancels when it is asked for the third time, and raises whenever it is told something. -/
def scribe : Caller (List Caller.Call) where
  cancelled := fun log => (log.length = 4, log ++ [.ask])
  told := fun report log => (.error .integerRange, log ++ [.tell report])

def stamps : Stamps :=
  [("/t/a.ali", 1, "c622dcc4a635fd41d5e280229986ad944fd4b4ce"),
    ("/t/b.ali", 1, "ce136f727cef94e5ff9769015714e3f5be50722a"),
    ("/t/e.ali", 1, "cc303ae370aebb961b6c6e57e6757a7c9ad2c7ed")]

/-- The records are in the order of their paths as they are. -/
theorem artifactStamps_eq : store.contents.artifactStamps = stamps := by
  have hrows : store.contents.artifacts.filterMap (fun a =>
      (store.contents.filePath? a.fileId).map fun path => (path, a.mtime, a.checksum)) = stamps := by decide +kernel
  rw [Contents.artifactStamps, hrows]
  exact List.mergeSort_of_pairwise (by decide +kernel)

end Crossref.Mixed
