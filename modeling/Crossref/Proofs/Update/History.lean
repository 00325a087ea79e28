/-
Histories of updates. A history starts from an empty store and takes one update
after the other, each with its own files, plan, time and cancellation; a step that
fails changes nothing. `History.current` holds the units that count at the end:
for every artifact the unit of its last merge, unless a later attempt failed.
Every history leads to a store that mirrors a ledger and is settled.
-/
import Crossref.Proofs.Merges
import Crossref.Proofs.Update.Merging
import Crossref.Proofs.Update.Planning
import Crossref.Proofs.Update.Reading

namespace Crossref

/-- One call of an update: the files as they are then, when it is cancelled, the time and the
plan. -/
structure UpdateStep where
  files : FileTree
  cancel : Nat → Bool
  now : Int
  plan : UpdatePlan

def UpdateStep.run (a : UpdateStep) (s : Store) :
    Except Failure (UpdateStats × List Progress) × Store :=
  Update.apply a.files a.cancel a.now a.plan s

/-- What the step reads; nothing if the reading fails. -/
def UpdateStep.batch (a : UpdateStep) : ReadBatch :=
  match Update.readStale a.files a.cancel a.plan.stale with
  | .ok b => b
  | .error _ => {}

/-- The artifact at the path has a record. -/
def Contents.Indexed (c : Contents) (path : String) : Prop :=
  ∃ a ∈ c.artifacts, c.filePath? a.fileId = some path

theorem Contents.Mirrors.indexed_iff {c : Contents} {L : Ledger} (h : c.Mirrors L) {path : String} :
    c.Indexed path ↔ L.Records path := by
  constructor
  · intro hex
    obtain ⟨a, ha, hp⟩ := hex
    obtain ⟨f, hf, hr⟩ := exists_right_of_forall₂ h.artifacts ha
    exact ⟨f, hf, Option.some.inj (hr.path.symm.trans hp)⟩
  · intro hex
    obtain ⟨f, hf, rfl⟩ := hex
    obtain ⟨a, ha, hr⟩ := exists_left_of_forall₂ h.artifacts hf
    exact ⟨a, ha, hr.path⟩

/-- The store after some updates, and the batches that were merged into it. -/
structure History where
  store : Store
  batches : List ReadBatch

namespace History

def start (path : String) : History where
  store := { path, readOnly := false, contents := .empty }
  batches := []

def next (h : History) (a : UpdateStep) : History :=
  match a.run h.store with
  | (.ok _, s) => ⟨s, h.batches ++ [a.batch]⟩
  | (.error _, s) => ⟨s, h.batches⟩

/-- The history of a store that starts out empty. -/
def run (path : String) (steps : List UpdateStep) : History :=
  steps.foldl next (start path)

theorem run_append (path : String) (done steps : List UpdateStep) :
    run path (done ++ steps) = steps.foldl next (run path done) :=
  List.foldl_append

theorem run_snoc (path : String) (steps : List UpdateStep) (a : UpdateStep) :
    run path (steps ++ [a]) = (run path steps).next a :=
  run_append path steps [a]

end History

/-- The units that count after the history. -/
def History.current (h : History) : List (String × CompilationUnit) :=
  currentUnits h.batches

/-! ## Steps -/

open StoreM

theorem UpdateStep.batch_named (a : UpdateStep) : ∀ u ∈ a.batch.units, u.Named := by
  unfold UpdateStep.batch
  split
  next hread => exact (Update.readFrom_ok hread).1
  next => simp [ReadBatch.units]

/-- What the batch parsed is what the files hold. -/
def ReadBatch.ReadFrom (t : FileTree) (b : ReadBatch) : Prop :=
  ∀ p ∈ b.parsed, Update.readArtifact t p.1.artifact.path = .ok (.ok p.2)

theorem UpdateStep.batch_readFrom (a : UpdateStep) : a.batch.ReadFrom a.files := by
  unfold UpdateStep.batch
  split
  next hread => exact fun p hp => (Update.readFrom_parsed hread p hp).2
  next => simp [ReadBatch.ReadFrom]

/-- What is read of a plan has the paths of the plan. -/
theorem Update.readStale_distinct {t : FileTree} {cancel : Nat → Bool} {p : UpdatePlan} {b : ReadBatch}
    (h : readStale t cancel p.stale = .ok b) (hd : p.Distinct) : b.paths.Nodup := by
  obtain ⟨left, hperm⟩ := (readFrom_ok h).2
  have hall : ((b.attempted ++ left).map (·.artifact.path)).Nodup := (hperm.map _).nodup_iff.2 hd
  rw [List.map_append] at hall
  exact (List.nodup_append.1 hall).1

theorem UpdateStep.batch_distinct {a : UpdateStep} (h : a.plan.Distinct) : a.batch.paths.Nodup := by
  unfold UpdateStep.batch
  split
  next b hread => exact Update.readStale_distinct hread h
  next => exact List.nodup_nil

/-- **A step merges what it read, or is refused and changes nothing.** -/
theorem UpdateStep.run_runs (a : UpdateStep) {s : Store} {L : Ledger} (hs : s.Idle)
    (h : s.contents.Mirrors L) :
    Runs s (Update.apply a.files a.cancel a.now a.plan)
      (fun _ c => c.Mirrors (L.merge a.batch a.plan.touched) ∧ c.Settled ∧ ∀ u ∈ a.batch.units, u.Fits)
      (fun e c => c = s.contents ∧ (Update.RefusedFor s a.batch e ∨ ∃ n, e = .numeral n)) := by
  have hnamed := a.batch_named
  unfold UpdateStep.batch at hnamed ⊢
  unfold Update.apply
  cases hread : Update.readStale a.files a.cancel a.plan.stale with
  | error e => exact ⟨hs, rfl, .inr (Update.readFrom_error hread)⟩
  | ok b =>
    rw [hread] at hnamed
    refine Runs.bind ((Update.merge_runs hs h hnamed a.plan a.now).weaken ?_) fun stats s' hs' hc => ?_
    · intro e c hpost
      obtain ⟨hc, he⟩ := hpost
      exact ⟨hc, .inl he⟩
    · exact ⟨hs', hc⟩

/-! ## The ledger of a history -/

/-- What holds after every step. -/
structure History.Sound (h : History) : Prop where
  idle : h.store.Idle
  mirrors : ∃ L, Ledger.Merges h.batches L ∧ h.store.contents.Mirrors L
  settled : h.store.contents.Settled
  named : ∀ b ∈ h.batches, ∀ u ∈ b.units, u.Named
  fits : ∀ b ∈ h.batches, ∀ u ∈ b.units, u.Fits

namespace History

theorem start_sound (path : String) : (start path).Sound where
  idle := ⟨rfl, rfl, rfl⟩
  mirrors := ⟨{}, .nil, Contents.empty_mirrors⟩
  settled := ⟨by simp [start, Contents.empty], by simp [start, Contents.empty],
    by simp [start, Contents.empty], by simp [start, Contents.empty]⟩
  named := by simp [start]
  fits := by simp [start]

theorem Sound.next {h : History} (hs : h.Sound) (a : UpdateStep) : (h.next a).Sound := by
  obtain ⟨L, hL, hm⟩ := hs.mirrors
  have hrun := a.run_runs hs.idle hm
  unfold Runs at hrun
  unfold History.next UpdateStep.run
  rcases hr : Update.apply a.files a.cancel a.now a.plan h.store with ⟨e | r, s'⟩
  · simp only [hr] at hrun ⊢
    obtain ⟨hidle, hc, -⟩ := hrun
    exact { hs with idle := hidle, mirrors := ⟨L, hL, hc ▸ hm⟩, settled := hc ▸ hs.settled }
  · simp only [hr] at hrun ⊢
    obtain ⟨hidle, hm', hsettled, hfits⟩ := hrun
    refine ⟨hidle, ⟨_, hL.snoc, hm'⟩, hsettled, fun b hb => ?_, fun b hb => ?_⟩
    · rcases List.mem_append.1 hb with hb | hb
      · exact hs.named b hb
      · exact List.mem_singleton.1 hb ▸ a.batch_named
    · rcases List.mem_append.1 hb with hb | hb
      · exact hs.fits b hb
      · exact List.mem_singleton.1 hb ▸ hfits

/-- **Every history leads to a store that mirrors a ledger and is settled.** -/
theorem run_sound (path : String) (steps : List UpdateStep) : (run path steps).Sound := by
  induction steps using List.reverseRecOn with
  | nil => exact start_sound path
  | append_singleton steps a ih =>
    rw [run_snoc]
    exact ih.next a

/-- What was merged are the batches of some of the steps. -/
theorem batches_forall {P : ReadBatch → Prop} {path : String} {steps : List UpdateStep} (h : ∀ a ∈ steps, P a.batch) :
    ∀ b ∈ (run path steps).batches, P b := by
  induction steps using List.reverseRecOn with
  | nil => simp [run, start]
  | append_singleton steps a ih =>
    have hsteps := ih fun a' ha' => h a' (by simp [ha'])
    rw [run_snoc, History.next]
    split
    · intro b hb
      rcases List.mem_append.1 hb with hb | hb
      · exact hsteps b hb
      · exact List.mem_singleton.1 hb ▸ h a (by simp)
    · exact hsteps

/-- Plans without repetition give batches without repetition. -/
theorem paths_nodup {path : String} {steps : List UpdateStep} (hd : ∀ a ∈ steps, a.plan.Distinct) :
    ∀ b ∈ (run path steps).batches, b.paths.Nodup :=
  batches_forall fun a ha => UpdateStep.batch_distinct (hd a ha)

/-- Every batch that was merged was read from some files. -/
theorem batches_readFrom (path : String) (steps : List UpdateStep) :
    ∀ b ∈ (run path steps).batches, ∃ t, b.ReadFrom t :=
  batches_forall fun a _ => ⟨a.files, a.batch_readFrom⟩

/-- The artifacts with a record are those with a unit that counts. -/
theorem Sound.indexed_iff {h : History} (hs : h.Sound) {path : String} :
    h.store.contents.Indexed path ↔ ∃ u, (path, u) ∈ h.current := by
  obtain ⟨L, hL, hm⟩ := hs.mirrors
  have hcounts : path ∈ (currentUnits h.batches).map (·.1) ↔ ∃ u, (path, u) ∈ h.current := by
    simp [History.current]
  rw [← hcounts, ← hL.records_iff]
  exact hm.indexed_iff

theorem mem_current_unit {h : History} {p : String × CompilationUnit} (hp : p ∈ h.current) :
    ∃ b ∈ h.batches, p.2 ∈ b.units :=
  let ⟨b, hb, hmem⟩ := exists_batch_of_mem_currentUnits hp
  ⟨b, hb, ReadBatch.mem_units_of_merged hmem⟩

/-- A unit that counts was read from the content of some file. -/
theorem current_read {path : String} {steps : List UpdateStep} {p : String × CompilationUnit}
    (hp : p ∈ (run path steps).current) : ∃ content, Artifact.readBytes p.1 content = .ok p.2 := by
  obtain ⟨b, hb, hmem⟩ := exists_batch_of_mem_currentUnits hp
  obtain ⟨t, ht⟩ := batches_readFrom path steps b hb
  obtain ⟨q, hq, rfl⟩ := List.mem_map.1 hmem
  obtain ⟨content, -, hread⟩ := Update.readArtifact_ok (ht q hq)
  exact ⟨content, hread⟩

theorem Sound.current_named {h : History} (hs : h.Sound) {p : String × CompilationUnit}
    (hp : p ∈ h.current) : p.2.Named :=
  let ⟨b, hb, hmem⟩ := mem_current_unit hp
  hs.named b hb p.2 hmem

theorem Sound.current_fits {h : History} (hs : h.Sound) {p : String × CompilationUnit}
    (hp : p ∈ h.current) : p.2.Fits :=
  let ⟨b, hb, hmem⟩ := mem_current_unit hp
  hs.fits b hb p.2 hmem

end History

end Crossref
