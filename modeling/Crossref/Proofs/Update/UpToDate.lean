/-
An artifact that is said to be up to date is up to date. Files are written and
touched, plans are made and plans that were made are carried out, in any order and
any number of times, so that files may change between a plan and its use. If no
file ever gets a time back that it had before, a record whose time is the time of
the file has the checksum of what the file holds.

The invariant also speaks of the plans that are still around: what they will write
as a time is a time that the file has had, and if it is the present one then a new
time that they will give to a record is right for the record.
-/
import Crossref.Proofs.Update.Reached
import Crossref.Proofs.Workspace.Changes

namespace Crossref

open StoreM

/-! ## Records -/

namespace Contents

/-- The artifact at the path has a record with the time and the checksum. -/
def Recorded (c : Contents) (path : String) (mtime : Int) (checksum : String) : Prop :=
  ∃ a ∈ c.artifacts, c.filePath? a.fileId = some path ∧ a.mtime = mtime ∧ a.checksum = checksum

variable {c : Contents} {L : Ledger} {path : String} {mtime : Int} {checksum : String}

theorem Mirrors.recorded_iff (h : c.Mirrors L) :
    c.Recorded path mtime checksum ↔
      ∃ f ∈ L.artifacts, f.path = path ∧ f.mtime = mtime ∧ f.checksum = checksum := by
  constructor
  · rintro ⟨a, ha, hpath, rfl, rfl⟩
    obtain ⟨f, hf, hr⟩ := exists_right_of_forall₂ h.artifacts ha
    exact ⟨f, hf, Option.some.inj (hr.path.symm.trans hpath), hr.mtime.symm, hr.checksum.symm⟩
  · rintro ⟨f, hf, rfl, rfl, rfl⟩
    obtain ⟨a, ha, hr⟩ := exists_left_of_forall₂ h.artifacts hf
    exact ⟨a, ha, hr.path, hr.mtime, hr.checksum⟩

/-- A path has one record. -/
theorem Reached.recorded_unique (h : c.Reached) {mtime' : Int} {checksum' : String}
    (h₁ : c.Recorded path mtime checksum) (h₂ : c.Recorded path mtime' checksum') :
    mtime' = mtime ∧ checksum' = checksum := by
  obtain ⟨L, batches, hL, hm⟩ := h.merges
  obtain ⟨f, hf, hpath, rfl, rfl⟩ := hm.recorded_iff.1 h₁
  obtain ⟨g, hg, hpath', rfl, rfl⟩ := hm.recorded_iff.1 h₂
  obtain rfl := List.inj_on_of_nodup_map hL.keyed.artifacts hg hf (hpath'.trans hpath.symm)
  exact ⟨rfl, rfl⟩

theorem recorded_of_lookup (h : c.artifactStamps.lookup path = some (mtime, checksum)) :
    c.Recorded path mtime checksum := by
  obtain ⟨before, after, hsplit, -⟩ := List.lookup_eq_some_iff.1 h
  have hmem : (path, mtime, checksum) ∈ c.artifactStamps := by simp [hsplit]
  simp only [artifactStamps, List.mem_mergeSort, List.mem_filterMap, Option.map_eq_some_iff] at hmem
  obtain ⟨a, ha, p, hp, heq⟩ := hmem
  obtain ⟨rfl, rfl, rfl⟩ := heq
  exact ⟨a, ha, hp, rfl, rfl⟩

end Contents

/-! ## Verdicts -/

/-- What a verdict goes by. -/
def Verdict.Grounds (t : FileTree) (c : Contents) (a : ArtifactFile) : Verdict → Prop
  | .stale mtime _ => t.stat a.path = .ok mtime
  | .touched mtime => ∃ recorded content, t.Opens a.path mtime content ∧
      c.Recorded a.path recorded (Digest.checksum content)
  | .upToDate => ∃ mtime checksum, t.stat a.path = .ok mtime ∧ c.Recorded a.path mtime checksum
  | .runtime | .unreadable _ => True

theorem Update.verdict_grounds (t : FileTree) (c : Contents) (includeRuntime : Bool) (a : ArtifactFile) :
    (verdict t c.artifactStamps includeRuntime a).Grounds t c a := by
  unfold verdict
  split
  · trivial
  · split
    · trivial
    next mtime hstat hlookup => exact hstat
    next mtime recorded checksum hstat hlookup =>
      have hrecorded := Contents.recorded_of_lookup hlookup
      split
      next heq => exact ⟨recorded, checksum, heq ▸ hstat, hrecorded⟩
      next =>
        split
        · trivial
        next content hread =>
          split
          next hsame => exact ⟨recorded, content, ⟨hstat, hread⟩, hsame ▸ hrecorded⟩
          next => exact hstat

/-! ## Records after an update -/

/-- Where the checksum of a record may come from: what a stale artifact of the plan reads as now, or
a record that was there. -/
def UpdateStep.Source (a : UpdateStep) (c : Contents) (path : String) (mtime : Int) (checksum : String) :
    Prop :=
  (∃ s ∈ a.plan.stale, s.artifact.path = path ∧ s.mtime = mtime ∧
      ∃ content, a.files.read path = .ok content ∧ checksum = Digest.checksum content) ∨
    c.Recorded path mtime checksum

theorem UpdateStep.batch_parsed (a : UpdateStep) {p : StaleArtifact × CompilationUnit}
    (hp : p ∈ a.batch.parsed) :
    p.1 ∈ a.plan.stale ∧ Update.readArtifact a.files p.1.artifact.path = .ok (.ok p.2) := by
  unfold UpdateStep.batch at hp
  split at hp
  next hread => exact Update.readFrom_parsed hread p hp
  next => cases hp

/-- A record after an update has a source, and the time of that or one that the plan gives. -/
theorem UpdateStep.recorded_run (a : UpdateStep) {s : Store} (hs : s.Idle) (hc : s.contents.Reached)
    {path : String} {mtime : Int} {checksum : String}
    (hr : (a.run s).2.contents.Recorded path mtime checksum) :
    ∃ m, (m = mtime ∨ (path, mtime) ∈ a.plan.touched) ∧ a.Source s.contents path m checksum := by
  obtain ⟨L, hm⟩ := hc.mirrors
  have hrun := a.run_runs hs hm
  unfold Runs at hrun
  change ((Update.apply a.files a.cancel a.now a.plan s).2.contents.Recorded path mtime checksum) at hr
  rcases happly : Update.apply a.files a.cancel a.now a.plan s with ⟨e | r, s'⟩
  · simp only [happly] at hrun hr
    obtain ⟨-, hsame, -⟩ := hrun
    exact ⟨mtime, .inl rfl, .inr (hsame ▸ hr)⟩
  · simp only [happly] at hrun hr
    obtain ⟨-, hm', -⟩ := hrun
    obtain ⟨f, hf, rfl, rfl, rfl⟩ := hm'.recorded_iff.1 hr
    obtain ⟨m, htime, ⟨p, hp, hpath, rfl, hchecksum⟩ | ⟨g, hg, hpath, rfl, hchecksum⟩⟩ :=
      Ledger.mem_artifacts_merge hf
    · obtain ⟨hstale, hread⟩ := a.batch_parsed hp
      obtain ⟨content, hcontent, hsum⟩ := Update.readArtifact_checksum hread
      refine ⟨p.1.mtime, htime, .inl ⟨p.1, hstale, hpath, rfl, content, hpath ▸ hcontent, ?_⟩⟩
      rw [← hchecksum, hsum]
    · exact ⟨g.mtime, htime, .inr (hm.recorded_iff.2 ⟨g, hg, hpath, rfl, hchecksum⟩)⟩

/-! ## Files, a store and plans -/

structure World where
  files : FileTree
  /-- The files before each change, the latest first. -/
  earlier : List FileTree
  store : Store
  /-- The plans that were made, the earliest first. -/
  plans : List UpdatePlan

inductive Move
  | write (path : String) (content : Text.Bytes) (mtime : Int)
  | touch (path : String) (mtime : Int)
  | plan (files : List ArtifactFile) (includeRuntime : Bool)
  /-- Carries out the plan with the number, which may be an old one or one that was carried out
  before. -/
  | apply (number : Nat) (cancel : Nat → Bool) (now : Int)

namespace World

/-- What stood at the place has had the time. -/
def hadTime (w : World) (place : Place) (mtime : Int) : Bool :=
  (w.files :: w.earlier).any fun t => (t.node? place).any (·.mtime = mtime)

/-- The files after a change of the file that the path leads to. A change that gives the file a time that
it had before is left out. -/
def change (w : World) (path : String) (mtime : Int) : Except PathError FileTree → World
  | .ok t =>
    if (t.placeOf path).any (w.hadTime · mtime) then w
    else { w with files := t, earlier := w.files :: w.earlier }
  | .error _ => w

def next (w : World) : Move → World
  | .write path content mtime => w.change path mtime (w.files.write path content mtime)
  | .touch path mtime => w.change path mtime (w.files.touch path mtime)
  | .plan files includeRuntime =>
    match Update.plan w.files files includeRuntime w.store with
    | (.ok p, s) => { w with store := s, plans := w.plans ++ [p] }
    | (.error _, s) => { w with store := s }
  | .apply number cancel now =>
    match w.plans[number]? with
    | some p => { w with store := (UpdateStep.run ⟨w.files, cancel, now, p⟩ w.store).2 }
    | none => w

/-- An empty store beside some files. -/
def start (path : String) (files : FileTree) : World :=
  ⟨files, [], (History.start path).store, []⟩

def run (path : String) (files : FileTree) (moves : List Move) : World :=
  moves.foldl next (start path files)

variable {w : World} {path : String} {mtime : Int} {checksum : String}

/-! ## The invariant -/

/-- The path leads to what has had the time. -/
def FileHadTime (w : World) (path : String) (mtime : Int) : Prop :=
  ∃ place, w.files.placeOf path = some place ∧ w.hadTime place mtime = true

/-- The file at the path can be read, it has had the time, and if it has the time now then the
checksum is that of its content. -/
def Vouches (w : World) (path : String) (mtime : Int) (checksum : String) : Prop :=
  w.FileHadTime path mtime ∧
    ∃ now content, w.files.Opens path now content ∧ (mtime = now → checksum = Digest.checksum content)

structure Sound (w : World) : Prop where
  idle : w.store.Idle
  reached : w.store.contents.Reached
  records : ∀ {path mtime checksum}, w.store.contents.Recorded path mtime checksum →
    w.Vouches path mtime checksum
  stale : ∀ p ∈ w.plans, ∀ s ∈ p.stale, w.FileHadTime s.artifact.path s.mtime
  touched : ∀ p ∈ w.plans, ∀ t ∈ p.touched, w.FileHadTime t.1 t.2 ∧
    ∀ {mtime checksum}, w.store.contents.Recorded t.1 mtime checksum → w.Vouches t.1 t.2 checksum

theorem fileHadTime_of_stat (h : w.files.stat path = .ok mtime) : w.FileHadTime path mtime := by
  obtain ⟨place, n, hfind, rfl⟩ := FileTree.stat_eq_ok h
  obtain ⟨hlocate, hnode⟩ := FileTree.find_eq_ok.1 hfind
  exact ⟨place, FileTree.placeOf_eq_some.2 hlocate, by simp [hadTime, hnode]⟩

/-- What the file holds now vouches for its checksum, under any time that the file has had. -/
theorem vouches_of_opens {now : Int} {content : Text.Bytes} (h : w.files.Opens path now content)
    (hhad : w.FileHadTime path mtime) : w.Vouches path mtime (Digest.checksum content) :=
  ⟨hhad, now, content, h, fun _ => rfl⟩

/-! ## Changes of files -/

theorem hadTime_later {t : FileTree} {place : Place} (h : w.hadTime place mtime = true) :
    ({ w with files := t, earlier := w.files :: w.earlier } : World).hadTime place mtime = true := by
  unfold hadTime at h ⊢
  rw [List.any_cons, h, Bool.or_true]

section
variable {t : FileTree} {place : Place} {new : Int} (hc : FileTree.MayChange place new w.files t)
  (hnew : w.hadTime place new = false)
include hc

theorem FileHadTime.later (h : w.FileHadTime path mtime) :
    ({ w with files := t, earlier := w.files :: w.earlier } : World).FileHadTime path mtime := by
  obtain ⟨place, hplace, hhad⟩ := h
  exact ⟨place, hc.placeOf hplace, hadTime_later hhad⟩

include hnew

/-- A time that the file has had is not the new time of the file that was changed. -/
theorem Vouches.later (h : w.Vouches path mtime checksum) :
    ({ w with files := t, earlier := w.files :: w.earlier } : World).Vouches path mtime checksum := by
  obtain ⟨hhad, now, content, hopens, hchecksum⟩ := h
  refine ⟨hhad.later hc, ?_⟩
  rcases hc.opens hopens with hopens' | ⟨hsame, content', hopens'⟩
  · exact ⟨now, content, hopens', hchecksum⟩
  · refine ⟨new, content', hopens', fun heq => ?_⟩
    obtain ⟨place', hplace', htime⟩ := hhad
    obtain rfl := Option.some.inj (hsame.symm.trans hplace')
    rw [heq, hnew] at htime
    cases htime

theorem Sound.later (h : w.Sound) :
    ({ w with files := t, earlier := w.files :: w.earlier } : World).Sound where
  idle := h.idle
  reached := h.reached
  records hr := (h.records hr).later hc hnew
  stale p hp s hs := (h.stale p hp s hs).later hc
  touched p hp s hs := by
    obtain ⟨hhad, hvouches⟩ := h.touched p hp s hs
    exact ⟨hhad.later hc, fun hr => (hvouches hr).later hc hnew⟩

end

theorem Sound.change (h : w.Sound) {r : Except PathError FileTree}
    (hr : ∀ t, r = .ok t → FileTree.ChangesAt path mtime w.files t) :
    (w.change path mtime r).Sound := by
  cases r with
  | error e => exact h
  | ok t =>
    unfold World.change
    dsimp only
    split
    · exact h
    next hnew =>
      obtain ⟨place, hplace, hchange⟩ := hr t rfl
      exact h.later hchange (by simpa [hplace] using hnew)

/-! ## Plans -/

theorem Sound.plan (h : w.Sound) (files : List ArtifactFile) (includeRuntime : Bool) :
    (w.next (.plan files includeRuntime)).Sound := by
  simp only [next]
  rw [Update.plan_apply h.idle.transaction h.reached.isIndex]
  cases files.mapM (Update.locate w.files) with
  | error e => exact h
  | ok located =>
    change ({ w with plans := w.plans ++ [_] } : World).Sound
    have hjudged := Update.planFor_judged w.files w.store.contents.artifactStamps includeRuntime located
    have hgrounds := Update.verdict_grounds w.files w.store.contents includeRuntime
    refine { h with stale := fun p hp s hs => ?_, touched := fun p hp t ht => ?_ }
    · rcases List.mem_append.1 hp with hp | hp
      · exact h.stale p hp s hs
      · obtain rfl := List.mem_singleton.1 hp
        have hs' := hgrounds s.artifact
        rw [hjudged.stale s hs] at hs'
        exact fileHadTime_of_stat hs'
    · rcases List.mem_append.1 hp with hp | hp
      · exact h.touched p hp t ht
      · obtain rfl := List.mem_singleton.1 hp
        obtain ⟨path, mtime⟩ := t
        obtain ⟨a, rfl, hv⟩ := hjudged.touched _ ht
        have ht' := hgrounds a
        rw [hv] at ht'
        obtain ⟨m, content, hopens, hrecorded⟩ := ht'
        have hhad := fileHadTime_of_stat hopens.stat
        refine ⟨hhad, fun hr => ?_⟩
        obtain ⟨-, rfl⟩ := h.reached.recorded_unique hrecorded hr
        exact vouches_of_opens hopens hhad

/-! ## Updates -/

theorem Sound.update (h : w.Sound) {p : UpdatePlan} (hp : p ∈ w.plans) (cancel : Nat → Bool) (now : Int) :
    ({ w with store := (UpdateStep.run ⟨w.files, cancel, now, p⟩ w.store).2 } : World).Sound := by
  let a : UpdateStep := ⟨w.files, cancel, now, p⟩
  have hrun := a.run_reached h.idle h.reached
  have hhad {path : String} {m : Int} {checksum : String}
      (hs : a.Source w.store.contents path m checksum) : w.FileHadTime path m := by
    rcases hs with ⟨s, hs, rfl, rfl, -⟩ | hr
    · exact h.stale p hp s hs
    · exact (h.records hr).1
  -- what was read now vouches for its checksum under every time that the file has had
  have hvouches {path : String} {m mtime : Int} {checksum : String}
      (hs : a.Source w.store.contents path m checksum)
      (hhad : w.FileHadTime path mtime)
      (hold : w.store.contents.Recorded path m checksum → w.Vouches path mtime checksum) :
      w.Vouches path mtime checksum := by
    rcases hs with ⟨s, -, -, -, content, hread, rfl⟩ | hr
    · obtain ⟨now, hopens⟩ := FileTree.opens_of_read hread
      exact vouches_of_opens hopens hhad
    · exact hold hr
  refine { h with idle := hrun.1, reached := hrun.2, records := ?_, touched := fun p' hp' t ht => ?_ }
  · intro path mtime checksum hr
    obtain ⟨m, rfl | htouched, hs⟩ := a.recorded_run h.idle h.reached hr
    · exact hvouches hs (hhad hs) h.records
    · have ht := h.touched p hp _ htouched
      exact hvouches hs ht.1 ht.2
  · have ht := h.touched p' hp' t ht
    refine ⟨ht.1, fun hr => ?_⟩
    obtain ⟨m, -, hs⟩ := a.recorded_run h.idle h.reached hr
    exact hvouches hs ht.1 ht.2

theorem Sound.apply (h : w.Sound) (number : Nat) (cancel : Nat → Bool) (now : Int) :
    (w.next (.apply number cancel now)).Sound := by
  simp only [next]
  cases hp : w.plans[number]? with
  | none => exact h
  | some p => exact h.update (List.mem_of_getElem? hp) cancel now

/-! ## Runs -/

/-- **Every move keeps the invariant.** -/
theorem Sound.next (h : w.Sound) : ∀ m : Move, (w.next m).Sound
  | .write _ _ _ => h.change fun _ ht => FileTree.write_changes ht
  | .touch _ _ => h.change fun _ ht => FileTree.touch_changes ht
  | .plan files includeRuntime => h.plan files includeRuntime
  | .apply number cancel now => h.apply number cancel now

theorem start_sound (path : String) (files : FileTree) : (start path files).Sound where
  idle := ⟨rfl, rfl, rfl⟩
  reached := ⟨path, [], rfl⟩
  records := by
    rintro _ _ _ ⟨a, ha, -⟩
    cases ha
  stale := by simp [start]
  touched := by simp [start]

theorem run_sound (path : String) (files : FileTree) (moves : List Move) : (run path files moves).Sound := by
  induction moves using List.reverseRecOn with
  | nil => exact start_sound path files
  | append_singleton moves m ih =>
    unfold run at ih ⊢
    rw [List.foldl_append]
    exact ih.next m

/-- **What is said to be up to date is up to date.** After any moves, a record whose time is the
time of its artifact has the checksum of what the artifact holds; and if a plan that is made then
lists an artifact as up to date, the artifact has a record, and the one checksum that it is
recorded with is that of what it holds. -/
theorem upToDate_current (store : String) (files : FileTree) (moves : List Move) :
    let w := run store files moves
    (∀ path mtime checksum, w.store.contents.Recorded path mtime checksum →
        w.files.stat path = .ok mtime →
        ∃ content, w.files.read path = .ok content ∧ checksum = Digest.checksum content) ∧
      ∀ artifacts includeRuntime plan,
        (Update.plan w.files artifacts includeRuntime w.store).1 = .ok plan → ∀ path ∈ plan.upToDate,
          ∃ content, w.files.read path = .ok content ∧
            (∃ mtime, w.store.contents.Recorded path mtime (Digest.checksum content)) ∧
            ∀ mtime checksum, w.store.contents.Recorded path mtime checksum →
              checksum = Digest.checksum content := by
  intro w
  have h : w.Sound := run_sound store files moves
  have hcurrent {path : String} {mtime : Int} {checksum : String}
      (hr : w.store.contents.Recorded path mtime checksum) (hstat : w.files.stat path = .ok mtime) :
      ∃ content, w.files.read path = .ok content ∧ checksum = Digest.checksum content := by
    obtain ⟨-, now, content, hopens, hchecksum⟩ := h.records hr
    exact ⟨content, hopens.read, hchecksum (Except.ok.inj (hstat.symm.trans hopens.stat))⟩
  refine ⟨fun path mtime checksum => hcurrent, fun artifacts includeRuntime plan hplan path hpath => ?_⟩
  rw [Update.plan_apply h.idle.transaction h.reached.isIndex] at hplan
  cases hlocated : artifacts.mapM (Update.locate w.files) with
  | error e =>
    rw [hlocated] at hplan
    cases hplan
  | ok located =>
    rw [hlocated] at hplan
    obtain rfl := Except.ok.inj hplan
    obtain ⟨a, rfl, hv⟩ := (Update.planFor_judged _ _ _ _).upToDate path hpath
    have hgrounds := Update.verdict_grounds w.files w.store.contents includeRuntime a
    -- either way some record has the checksum of what the artifact holds
    have hrecorded : ∃ content, w.files.read a.path = .ok content ∧
        ∃ mtime, w.store.contents.Recorded a.path mtime (Digest.checksum content) := by
      rcases hv with hv | ⟨mtime, hv⟩
      · rw [hv] at hgrounds
        obtain ⟨mtime, checksum, hstat, hr⟩ := hgrounds
        obtain ⟨content, hread, rfl⟩ := hcurrent hr hstat
        exact ⟨content, hread, mtime, hr⟩
      · rw [hv] at hgrounds
        obtain ⟨recorded, content, hopens, hr⟩ := hgrounds
        exact ⟨content, hopens.read, recorded, hr⟩
    obtain ⟨content, hread, mtime, hr⟩ := hrecorded
    exact ⟨content, hread, ⟨mtime, hr⟩, fun _ _ hr' => (h.reached.recorded_unique hr hr').2⟩

end World

/-! An artifact is written again after it was planned and before the plan is carried out. -/

namespace WrittenMeanwhile

def declaring (name : String) : Text.Bytes :=
  ("V \"1\"\nU v%b v.adb 00000000\nD v.adb 20240101000000 00000000\nX 1 v.adb\n1V1*" ++ name ++ "\n").toUTF8.toList

def artifacts : List ArtifactFile :=
  [{ path := "v.ali" }]

def world : World :=
  .run "x.db" ⟨["t"], [(["t"], .directory)], []⟩
    [.write "v.ali" (declaring "F") 1, .plan artifacts true, .write "v.ali" (declaring "G") 2,
      .apply 0 (fun _ => false) 1000]

/-- The record has the time of the plan and the checksum of the later content, so a further plan finds
the artifact up to date. -/
theorem up_to_date_after_write :
    world.store.contents.artifactStamps.map (·.2.1) = [1] ∧ world.files.stat "/t/v.ali" = .ok 2 ∧
      ∃ plan, (Update.plan world.files artifacts true world.store).1 = .ok plan ∧
        plan.upToDate = ["/t/v.ali"] ∧
        ∃ content, world.files.read "/t/v.ali" = .ok content ∧
          ∃ mtime, world.store.contents.Recorded "/t/v.ali" mtime (Digest.checksum content) := by
  have hplanned : (Update.plan world.files artifacts true world.store).1.map (·.upToDate) =
      .ok ["/t/v.ali"] := by decide +kernel
  refine ⟨by decide +kernel, by decide +kernel, ?_⟩
  cases hplan : (Update.plan world.files artifacts true world.store).1 with
  | error e =>
    rw [hplan] at hplanned
    cases hplanned
  | ok plan =>
    rw [hplan] at hplanned
    have hlisted : plan.upToDate = ["/t/v.ali"] := Except.ok.inj hplanned
    obtain ⟨content, hread, hrecorded, -⟩ :=
      (World.upToDate_current "x.db" _ _).2 artifacts true plan hplan "/t/v.ali" (by simp [hlisted])
    exact ⟨plan, rfl, hlisted, content, hread, hrecorded⟩

end WrittenMeanwhile

end Crossref
