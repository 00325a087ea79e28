/-
Staging is transparent. A run of an update, staged or not, leaves what a plan and
its application leave when they are carried out directly on the base: the same
target, the same statistics, the same export, or the same failure with the base
untouched. So two runs with any two thresholds, also at different times, cannot be
told apart but by the recorded times, by the note that the update was staged, and by
the path of the store in the failure of a merge.
-/
import Crossref.Proofs.Workspace.Stages

namespace Crossref

open Workspace WorkM

namespace Lifecycle

/-- A plan and its application, carried out directly on a store. -/
def direct (t : FileTree) (request : UpdateRequest) : StoreM UpdateStats := do
  let plan ← Update.plan t request.files request.includeRuntime
  let (stats, _) ← Update.apply t request.cancel request.now plan
  pure stats

/-- The answer of a direct update of a store at a path with these contents, and the contents after it. -/
def inPlace (path : String) (t : FileTree) (request : UpdateRequest) (c : Contents) :
    Except Failure UpdateStats × Contents :=
  let r := direct t request (c.idle path)
  (r.1, r.2.contents)

/-- How a run ended. The base is what the target holds after the seeding; the update does to it
what a direct update does, and an export that ran exported what the target holds then. -/
inductive RunEnds (w : Workspace) (target : Nat) (path : String) (place : Option Place) (c : Contents)
    (request : UpdateRequest) : Except Failure UpdateResult × Workspace → Prop
  /-- The path of the seed cannot be resolved, or the seed cannot be opened. -/
  | seedRefused {e : Failure} {u : Workspace} {seed : String} (given : request.seed = some seed)
      (unrecorded : c.files.isEmpty = true) (cause : w.files.resolve seed = .error e ∨ (connect seed true w).1 = .error e)
      (refused : (bootstrap target request.seed w).1 = .error e) (shows : u.Shows target c) :
      RunEnds w target path place c request (.error e, u)
  /-- The update raises, and the target still holds the base. A merge in memory fails under the path of the store in
  memory. -/
  | updateFailed {e e' : Failure} {u : Workspace} {o : StageOutcome}
      (seeded : (bootstrap target request.seed w).1 = .ok o)
      (update : (inPlace path w.files request (base w.files place c request.seed)).1 = .error e')
      (same : e.unplaced = e'.unplaced)
      (shows : u.Shows target (base w.files place c request.seed)) :
      RunEnds w target path place c request (.error e, u)
  /-- The output cannot be opened. -/
  | exportFailed {e : Failure} {u : Workspace} {o : StageOutcome} {stats : UpdateStats}
      (seeded : (bootstrap target request.seed w).1 = .ok o)
      (update : (inPlace path w.files request (base w.files place c request.seed)).1 = .ok stats)
      (output : exportOutcome w.files place request.output = .error e)
      (shows : u.Shows target (inPlace path w.files request (base w.files place c request.seed)).2) :
      RunEnds w target path place c request (.error e, u)
  | completed {a : UpdateResult} {u : Workspace} {o exported : StageOutcome}
      (seeded : (bootstrap target request.seed w).1 = .ok o)
      (update : (inPlace path w.files request (base w.files place c request.seed)).1 =
        .ok { a.stats with staged := false })
      (output : exportOutcome w.files place request.output = .ok exported)
      (reported : a.report.getLast? = some exported)
      (shows : u.Shows target (inPlace path w.files request (base w.files place c request.seed)).2)
      (exports : exported.ran = true → ∃ out, request.output = some out ∧
        Exported u out (inPlace path w.files request (base w.files place c request.seed)).2) :
      RunEnds w target path place c request (.ok a, u)

/-- What can be told of an answer of an update but for whether it was staged, and in which store a merge failed. -/
def tellable (r : Except Failure UpdateStats) : Except Failure UpdateStats :=
  (r.mapError Failure.unplaced).map fun s => { s with staged := false }

/-- What can be told of a run afterwards but for the times. -/
structure Observation where
  outcome : Except Failure UpdateStats
  /-- What the target holds. -/
  target : Option Contents
  /-- What the output holds, after an export that ran. -/
  exported : Option Contents

def observe (target : Nat) (r : Except Failure UpdateResult × Workspace) : Observation where
  outcome := tellable (r.1.map (·.stats))
  target := (r.2.connection? target).map fun k => (r.2.storeOf k).contents.untimed
  exported :=
    match r.1 with
    | .ok a =>
      if (a.report.getLast?).any (·.ran) then
        (r.2.connections.getLast?).map fun k => (r.2.storeOf k).contents.untimed
      else none
    | .error _ => none

variable {w : Workspace} {target : Nat} {path : String} {place : Option Place} {c : Contents}
  {t : FileTree} {request : UpdateRequest}

theorem base_reached (place : Option Place) (hc : c.Reached)
    (hseed : ∀ seed d, request.seed = some seed → t.index? seed = some d → d.Reached) :
    (base t place c request.seed).Reached := by
  cases hgiven : request.seed with
  | none => exact hc
  | some seed =>
    unfold base
    dsimp only
    split
    · cases hindex : t.index? seed with
      | none => exact hc
      | some d => exact hseed seed d hgiven hindex
    · exact hc

/-! ## The direct update -/

theorem inPlace_apply (hc : c.IsIndex) (path : String) (t : FileTree) (request : UpdateRequest) :
    inPlace path t request c =
      match planned t request.files request.includeRuntime c with
      | .error e => (.error e, c)
      | .ok p => updated path t request.cancel request.now p c := by
  have hplan : Update.plan t request.files request.includeRuntime (c.idle path) =
      (planned t request.files request.includeRuntime c, c.idle path) := Update.plan_apply rfl hc _ _
  unfold inPlace direct
  rw [StoreM.bind_apply, hplan]
  cases planned t request.files request.includeRuntime c with
  | error e => rfl
  | ok p =>
    unfold updated
    dsimp only
    rw [StoreM.bind_apply]
    rcases Update.apply t request.cancel request.now p (c.idle path) with ⟨_ | _, _⟩ <;> rfl

/-- A direct update that raises takes everything back. -/
theorem inPlace_error (hc : c.Reached) {e : Failure} (h : (inPlace path t request c).1 = .error e) :
    (inPlace path t request c).2 = c := by
  rw [inPlace_apply hc.isIndex] at h ⊢
  cases hplan : planned t request.files request.includeRuntime c with
  | error e => rfl
  | ok p =>
    rw [hplan] at h
    exact updated_error hc h

/-- At another time the same is answered, and the same is left but for the times. -/
theorem inPlace_times (hc : c.Reached) (now : Int) :
    (inPlace path t request c).1 = (inPlace path t { request with now } c).1 ∧
      (inPlace path t request c).2.untimed = (inPlace path t { request with now } c).2.untimed := by
  obtain ⟨L, hm⟩ := hc.mirrors
  rw [inPlace_apply hc.isIndex, inPlace_apply hc.isIndex]
  cases planned t request.files request.includeRuntime c with
  | error e => exact ⟨rfl, rfl⟩
  | ok p =>
    dsimp only
    rw [updated_apply, updated_apply]
    cases hread : Update.readStale t request.cancel p.stale with
    | error e => exact ⟨rfl, rfl⟩
    | ok batch =>
      exact Update.merge_timeless (c.isIdle_idle path) hm (Update.readStale_named hread) p request.now now

/-- What a direct update answers was not staged. -/
theorem inPlace_unstaged (hc : c.Reached) (path : String) (t : FileTree) (request : UpdateRequest) :
    ((inPlace path t request c).1.map fun s => { s with staged := false }) = (inPlace path t request c).1 := by
  obtain ⟨L, hm⟩ := hc.mirrors
  rw [inPlace_apply hc.isIndex]
  cases planned t request.files request.includeRuntime c with
  | error e => rfl
  | ok p =>
    dsimp only
    rw [updated_apply]
    cases hread : Update.readStale t request.cancel p.stale with
    | error e => rfl
    | ok batch =>
      dsimp only
      rw [Update.merge_apply (c.isIdle_idle path) hm (Update.readStale_named hread)]
      split <;> rfl

/-! ## A run -/

/-- The update of a run, staged or not. -/
theorem update_ends (h : w.Holds target path place c) (hc : c.Reached) (request : UpdateRequest)
    (p : UpdatePlan) (staged : Bool) :
    ∃ r u, (if staged then applyStaged target request p else apply target request.cancel request.now p) w =
        (r, u) ∧
      u.Holds target path place (updated path w.files request.cancel request.now p c).2 ∧
      FileTree.Alike place w.files u.files ∧
      tellable r = tellable (updated path w.files request.cancel request.now p c).1 := by
  cases staged with
  | true =>
    obtain ⟨u, hu, hholds, hfiles⟩ := applyStaged_ends h hc request p
    obtain ⟨hanswer, hcontents⟩ := updated_paths w.files request.cancel request.now p hc memoryPath path
    refine ⟨_, u, hu, hcontents ▸ hholds, hfiles, ?_⟩
    unfold tellable
    rw [← hanswer]
    cases (updated memoryPath w.files request.cancel request.now p c).1 <;> rfl
  | false =>
    obtain ⟨u, hu, hholds, hbeside⟩ := apply_ends h hc request.cancel request.now p
    exact ⟨_, u, hu, hholds, hbeside.files, rfl⟩

/-- A run whose update succeeded ends with the export. -/
theorem export_ends {w₃ : Workspace} {o : StageOutcome} {stats : UpdateStats}
    (hseeded : (bootstrap target request.seed w).1 = .ok o)
    (hupdate : (inPlace path w.files request (base w.files place c request.seed)).1 = .ok { stats with staged := false })
    (h : w₃.IsTarget target path place (inPlace path w.files request (base w.files place c request.seed)).2)
    (hfiles : FileTree.Alike place w.files w₃.files) (report : LifecycleReport) :
    RunEnds w target path place c request
      ((exportTo target request.output >>= fun exported =>
        pure { stats, report := report ++ [exported] }) w₃) := by
  obtain ⟨w₄, hexport, h₄, hexported⟩ := exportTo_ends h request.output
  have houtcome := exportOutcome_alike hfiles request.output
  rw [← houtcome] at hexport hexported
  rw [bind_apply, hexport]
  cases ho : exportOutcome w.files place request.output with
  | error e => exact .exportFailed hseeded hupdate ho h₄.shows
  | ok exported =>
    exact .completed hseeded hupdate ho List.getLast?_concat h₄.shows (hexported exported ho)

theorem run_ends (h : w.IsTarget target path place c) (hc : c.Reached) (request : UpdateRequest)
    (hbase : (base w.files place c request.seed).Reached) (threshold : Int) :
    RunEnds w target path place c request (run target threshold request w) := by
  unfold run
  rw [bind_apply]
  rcases bootstrap_ends h hc.isIndex request.seed with
    ⟨o, w₁, hboot, h₁, hfiles₁⟩ | ⟨e, w₁, s, hboot, h₁, hgiven, hempty, hcause⟩
  · rw [hboot]
    have hseeded : (bootstrap target request.seed w).1 = .ok o := by rw [hboot]
    obtain ⟨w₂, hplan, h₂, hfiles₂⟩ :=
      plan_ends h₁ hbase.isIndex request.files request.includeRuntime
    have hinPlace := inPlace_apply hbase.isIndex path w.files request
    rw [planned_alike hfiles₁] at hinPlace
    dsimp only
    rw [bind_apply, hplan]
    cases hplanned : planned w₁.files request.files request.includeRuntime
        (base w.files place c request.seed) with
    | error e =>
      rw [hplanned] at hinPlace
      exact .updateFailed hseeded (by rw [hinPlace]) rfl h₂.toHolds.shows
    | ok p =>
      rw [hplanned] at hinPlace
      obtain ⟨k, hk, -⟩ := h₂.connection
      have hfiles := hfiles₁.trans hfiles₂
      dsimp only at hinPlace ⊢
      rw [bind_apply, connection_apply hk]
      dsimp only
      rw [ite_bind, bind_apply]
      obtain ⟨r, w₃, hupdate, h₃, hfiles₃, hstats⟩ :=
        update_ends h₂.toHolds hbase request p (staging k threshold p).ran
      rw [hupdate]
      rw [← updated_alike hfiles] at h₃ hstats
      rw [← hinPlace] at h₃ hstats
      have hunstaged := inPlace_unstaged hbase path w.files request
      cases hmade : (inPlace path w.files request (base w.files place c request.seed)).1 with
      | error e' =>
        rw [inPlace_error hbase hmade] at h₃
        rw [hmade] at hstats
        cases r with
        | error e => exact .updateFailed hseeded hmade (Except.error.inj hstats) h₃.shows
        | ok stats => cases hstats
      | ok stats' =>
        rw [hmade] at hstats hunstaged
        cases r with
        | error e => cases hstats
        | ok stats =>
          have hsame : { stats with staged := false } = stats' :=
            (Except.ok.inj hstats).trans (Except.ok.inj hunstaged)
          exact export_ends hseeded (hsame ▸ hmade) (h₂.holds h₃ hfiles₃) (hfiles.trans hfiles₃) _
  · rw [hboot]
    exact .seedRefused hgiven hempty hcause (by rw [hboot]) h₁.shows

/-! ## What can be told -/

theorem Shows.observed {u : Workspace} {d : Contents} (h : u.Shows target d) :
    ((u.connection? target).map fun k => (u.storeOf k).contents.untimed) = some d.untimed := by
  obtain ⟨k, hk, rfl⟩ := h
  rw [hk]
  rfl

theorem Exported.observed {u : Workspace} {output : String} {d : Contents} (h : Exported u output d) :
    ((u.connections.getLast?).map fun k => (u.storeOf k).contents.untimed) = some d.untimed := by
  obtain ⟨k, hk, -, rfl⟩ := h
  rw [hk]
  rfl

/-- All that can be told of a run follows from the seeding, from the direct update of the base and
from whether the output can be written. -/
theorem RunEnds.observed {r : Except Failure UpdateResult × Workspace}
    (h : RunEnds w target path place c request r) :
    observe target r =
      let made := inPlace path w.files request (base w.files place c request.seed)
      match (bootstrap target request.seed w).1, made.1, exportOutcome w.files place request.output with
      | .error e, _, _ => ⟨.error e.unplaced, some c.untimed, none⟩
      | .ok _, .error e, _ => ⟨.error e.unplaced, some (base w.files place c request.seed).untimed, none⟩
      | .ok _, .ok _, .error e => ⟨.error e.unplaced, some made.2.untimed, none⟩
      | .ok _, .ok stats, .ok exported =>
        ⟨.ok stats, some made.2.untimed, if exported.ran then some made.2.untimed else none⟩ := by
  cases h with
  | seedRefused given unrecorded cause refused shows =>
    simp only [observe, refused, Shows.observed shows]
    rfl
  | updateFailed seeded update same shows =>
    simp only [observe, seeded, update, Shows.observed shows, ← same]
    rfl
  | exportFailed seeded update output shows =>
    simp only [observe, seeded, update, output, Shows.observed shows]
    rfl
  | @completed a u o exported seeded update output reported shows exports =>
    have hexported : (if (a.report.getLast?).any (·.ran) then
        (u.connections.getLast?).map fun k => (u.storeOf k).contents.untimed else none) =
        if exported.ran then
          some (inPlace path w.files request (base w.files place c request.seed)).2.untimed else none := by
      rw [reported, Option.any_some]
      cases hran : exported.ran with
      | false => rfl
      | true =>
        obtain ⟨out, -, hout⟩ := exports hran
        exact Exported.observed hout
    simp only [observe, seeded, update, output, Shows.observed shows, hexported]
    rfl

/-- **Staging is transparent.** Take a store in a file that updates have led to, open for writing,
with no transaction open on it, neither that of a block nor that of a query with rows still to
come, and a seed that updates have led to or that cannot be used. Each of two runs, with any
thresholds and at any times, ends as the direct update of the base does, and the two cannot be told
apart: both raise the same failure or both complete, with the same statistics, the same target and
the same export. Only in the message of a merge that found no id left they may name different
stores. -/
theorem staging_transparent {p : Place} (h : w.IsTarget target path (some p) c) (hc : c.Reached)
    (hseed : ∀ seed d, request.seed = some seed → w.files.index? seed = some d → d.Reached)
    (threshold threshold' now : Int) :
    let other : UpdateRequest := { request with now }
    RunEnds w target path (some p) c request (run target threshold request w) ∧
      RunEnds w target path (some p) c other (run target threshold' other w) ∧
      observe target (run target threshold request w) = observe target (run target threshold' other w) := by
  intro other
  have hbase := base_reached (some p) hc hseed
  have hrun := run_ends h hc request hbase threshold
  have hother := run_ends h hc other hbase threshold'
  refine ⟨hrun, hother, ?_⟩
  rw [hrun.observed, hother.observed]
  simp only [other, inPlace_times hbase now]

end Lifecycle

/-! ## A seeded run -/

namespace SeededRun

def declaring : String :=
  "V \"1\"\nU v%b v.adb 00000000\nD v.adb 20240101000000 00000000\nX 1 v.adb\n1V1*F 2r2\n"

def calling : String :=
  "V \"1\"\nU w%b w.adb 00000000\nD v.adb 20240101000000 00000000\nX 1 v.adb\n1V1*F 3r4\n"

def artifacts : List (Place × Node) :=
  [(["t"], .directory), (["t", "v.ali"], .bytes declaring.toUTF8.toList 1),
    (["t", "w.ali"], .bytes calling.toUTF8.toList 2)]

/-- The update that made the seed. -/
def seeding : UpdateStep where
  files := ⟨["t"], artifacts, []⟩
  cancel _ := false
  now := 1000
  plan := { stale := [⟨{ path := "/t/v.ali" }, 1, true⟩] }

def seed : Contents :=
  (History.run "s" [seeding]).store.contents

/-- An empty target beside the seed. -/
def work : Workspace where
  files := ⟨["t"], artifacts ++ [(["t", "x.db"], .store .empty 0), (["t", "seed.db"], .store seed 0)], []⟩
  connections := [{ path := "x.db", readOnly := false, place := some ["t", "x.db"], contents := .empty }]

def request : UpdateRequest where
  files := [{ path := "v.ali" }, { path := "w.ali" }]
  seed := some "seed.db"
  output := some "out.db"
  now := 2000

/-- One run is staged and one is not, and nothing else tells them apart. -/
theorem staged_or_not :
    (Lifecycle.run 0 0 request work).1.map (·.stats.staged) = .ok true ∧
      (Lifecycle.run 0 5 { request with now := 3000 } work).1.map (·.stats.staged) = .ok false ∧
      Lifecycle.observe 0 (Lifecycle.run 0 0 request work) =
        Lifecycle.observe 0 (Lifecycle.run 0 5 { request with now := 3000 } work) := by
  have htarget : work.IsTarget 0 "x.db" (some ["t", "x.db"]) .empty :=
    { connection := ⟨_, rfl, ⟨rfl, rfl, rfl, rfl, rfl, rfl⟩, fun _ => rfl⟩
      file := fun p hp => ⟨0, by rw [← Option.some.inj hp]; rfl⟩
      unread := by decide
      reading := by simp [work]
      inMemory := fun h => by cases h
      onDisk := fun p hp => by
        rw [← Option.some.inj hp]
        exact ⟨by decide, by decide⟩ }
  have hseed : ∀ s d, request.seed = some s → work.files.index? s = some d → d.Reached := by
    intro s d hs hd
    obtain rfl := Option.some.inj hs
    have hindex : work.files.index? "seed.db" = some seed := by decide +kernel
    rw [hindex] at hd
    exact ⟨"s", [seeding], Option.some.inj hd⟩
  have h := Lifecycle.staging_transparent htarget Contents.reached_empty hseed 0 5 3000
  exact ⟨by decide +kernel, by decide +kernel, h.2.2⟩

end SeededRun

end Crossref
