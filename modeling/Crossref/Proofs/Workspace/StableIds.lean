/-
Ids are stable and never reused. On one target, over any run of updates, staged or
in place, seeded, refused or taken back: an entity that stays keeps its id, an id
that stood for one key never stands for another, also after its entity is gone, and
a recorded file keeps its row.
-/
import Crossref.Proofs.Store.Links
import Crossref.Proofs.Workspace.Transparent

namespace Crossref

open Workspace

/-! ## What a key and a path keep -/

namespace Contents

variable {c c' c'' : Contents}

/-- Seen from later contents: every file is still there, and an entity is an old one or has an id
that was not given before. -/
structure Precedes (c c' : Contents) : Prop where
  files : ∀ f ∈ c.files, ∃ f' ∈ c'.files, StillFile f f'
  entities : ∀ e' ∈ c'.entities, (∃ e ∈ c.entities, SameEntity e e') ∨ c.lastEntity < e'.id
  lastEntity : c.lastEntity ≤ c'.lastEntity

theorem Succeeds.precedes (h : c.Succeeds c') : c.Precedes c' where
  files := h.files
  entities e' he' := (h.entities e' he').imp id And.left
  lastEntity := h.lastEntity

theorem Precedes.trans (h₁ : c.Precedes c') (h₂ : c'.Precedes c'') : c.Precedes c'' where
  files := files_trans h₁.files h₂.files
  entities e'' he'' := by
    rcases h₂.entities e'' he'' with ⟨e', he', hsame'⟩ | hid
    · rcases h₁.entities e' he' with ⟨e, he, hsame⟩ | hid
      · exact .inl ⟨e, he, hsame.trans hsame'⟩
      · exact .inr (hsame'.1 ▸ hid)
    · exact .inr (Int.lt_of_le_of_lt h₁.lastEntity hid)
  lastEntity := Int.le_trans h₁.lastEntity h₂.lastEntity

/-- A path keeps its id. -/
theorem filePath?_of_files (hc' : c'.Sound) (h : ∀ f ∈ c.files, ∃ f' ∈ c'.files, StillFile f f')
    {id : Int} {path : String} (hid : c.filePath? id = some path) : c'.filePath? id = some path := by
  obtain ⟨f, hf, rfl, rfl⟩ := mem_of_filePath? hid
  obtain ⟨f', hf', hsame, hpath, -⟩ := h f hf
  rw [← hsame, ← hpath]
  exact hc'.filePath?_of_mem hf'

/-- An entity that stayed still has its key. -/
theorem keyOf?_of_same (hc' : c'.Sound) (h : ∀ f ∈ c.files, ∃ f' ∈ c'.files, StillFile f f')
    {e e' : EntityRow} (hsame : SameEntity e e') {k : EntityKey} (hk : c.keyOf? e = some k) :
    c'.keyOf? e' = some k := by
  obtain ⟨hpath, hname, hline, hcolumn⟩ := keyOf?_eq_some.1 hk
  have hkey := hsame.2
  simp only [EntityRow.pendingKey, PendingKey.mk.injEq, Option.some.injEq] at hkey
  obtain ⟨hname', hfile', hline', hcolumn'⟩ := hkey
  refine keyOf?_eq_some.2 ⟨?_, hname'.trans hname, hline'.trans hline, hcolumn'.trans hcolumn⟩
  rw [hfile']
  exact filePath?_of_files hc' h hpath

/-- An id that stood for a key stands for no other key later. -/
theorem Precedes.key_eq (h : c.Precedes c') (hc : c.Sound) (hc' : c'.Sound) {id : Int} {k k' : EntityKey}
    (hk : c.names.key? id = some k) (hk' : c'.names.key? id = some k') : k' = k := by
  obtain ⟨e, he, hid, hkey⟩ := mem_of_key? hk
  obtain ⟨e', he', hid', hkey'⟩ := mem_of_key? hk'
  rcases h.entities e' he' with ⟨e₁, he₁, hsame⟩ | hnew
  · have hid₁ : e₁.id = e.id := by rw [← hsame.1, hid', hid]
    obtain rfl := List.inj_on_of_nodup_map hc.entityIds he₁ he hid₁
    exact Option.some.inj (hkey'.symm.trans (keyOf?_of_same hc' h.files hsame hkey))
  · have hrange := (hc.entityRange e he).2
    omega

/-- A key that is there before and after one update has one id. -/
theorem Succeeds.id_eq (h : c.Succeeds c') (hc : c.Sound) (hc' : c'.Sound) {id id' : Int} {k : EntityKey}
    (hk : c.names.key? id = some k) (hk' : c'.names.key? id' = some k) : id' = id := by
  obtain ⟨e, he, rfl, hkey⟩ := mem_of_key? hk
  obtain ⟨e', he', rfl, hkey'⟩ := mem_of_key? hk'
  obtain ⟨hpath, hname, hline, hcolumn⟩ := keyOf?_eq_some.1 hkey
  obtain ⟨hpath', hname', hline', hcolumn'⟩ := keyOf?_eq_some.1 hkey'
  have hfile := hc'.path_inj hpath' (filePath?_of_files hc' h.files hpath)
  have hpending : e.pendingKey = e'.pendingKey := by
    simp only [EntityRow.pendingKey, hfile, hname, hname', hline, hline', hcolumn, hcolumn']
  rcases h.entities e' he' with ⟨e₁, he₁, hsame⟩ | ⟨-, hfree⟩
  · obtain rfl := List.inj_on_of_nodup_map hc.entityKeys he₁ he (hsame.2.symm.trans hpending.symm)
    exact hsame.1
  · exact absurd hpending (hfree e he)

/-- Without files there are no entities. -/
theorem Reached.entities_of_files (hc : c.Reached) (hfiles : c.files = []) : c.entities = [] := by
  obtain ⟨L, hm⟩ := hc.mirrors
  refine List.eq_nil_iff_forall_not_mem.2 fun e he => ?_
  obtain ⟨f, -, hf⟩ := exists_right_of_forall₂ hm.entities he
  obtain ⟨g, hg, -⟩ := mem_of_filePath? hf.file
  rw [hfiles] at hg
  cases hg

end Contents

/-! ## One update -/

namespace Lifecycle

variable {path : String} {t : FileTree} {c : Contents} {request : UpdateRequest}

theorem inPlace_reached (hc : c.Reached) : (inPlace path t request c).2.Reached := by
  rw [inPlace_apply hc.isIndex]
  cases planned t request.files request.includeRuntime c with
  | error e => exact hc
  | ok p => exact updated_reached hc

theorem inPlace_succeeds (hc : c.Reached) : c.Succeeds (inPlace path t request c).2 := by
  rw [inPlace_apply hc.isIndex]
  cases planned t request.files request.includeRuntime c with
  | error e => exact Std.Refl.refl c
  | ok p => exact updated_succeeds hc

/-- After a run the target holds what it held, the base, or what the update made of the base. -/
theorem RunEnds.shows {w : Workspace} {target : Nat} {place : Option Place}
    {r : Except Failure UpdateResult × Workspace} (h : RunEnds w target path place c request r) :
    ∃ c', r.2.Shows target c' ∧
      (c' = c ∨ c' = base w.files place c request.seed ∨
        c' = (inPlace path w.files request (base w.files place c request.seed)).2) := by
  cases h with
  | seedRefused given unrecorded cause refused shows => exact ⟨_, shows, .inl rfl⟩
  | updateFailed seeded update same shows => exact ⟨_, shows, .inr (.inl rfl)⟩
  | exportFailed seeded update output shows => exact ⟨_, shows, .inr (.inr rfl)⟩
  | completed seeded update output reported shows exports => exact ⟨_, shows, .inr (.inr rfl)⟩

end Lifecycle

/-- One update of a target, from the contents before it to the contents after it: a run through
all stages, or a plan, made at any time, that is carried out in place. It may fail. -/
inductive Updates (c c' : Contents) : Prop
  | run {w : Workspace} {target : Nat} {path : String} {place : Option Place} {request : UpdateRequest}
      (threshold : Int) (before : w.IsTarget target path place c)
      (seed : ∀ s d, request.seed = some s → w.files.index? s = some d → d.Reached)
      (after : (Lifecycle.run target threshold request w).2.Shows target c') : Updates c c'
  | apply {w : Workspace} {target : Nat} {path : String} {place : Option Place} (cancel : Nat → Bool)
      (now : Int) (plan : UpdatePlan) (before : w.Holds target path place c)
      (after : (Lifecycle.apply target cancel now plan w).2.Shows target c') : Updates c c'

theorem Workspace.Shows.unique {w : Workspace} {id : Nat} {c c' : Contents} (h : w.Shows id c)
    (h' : w.Shows id c') : c = c' := by
  obtain ⟨k, hk, rfl⟩ := h
  obtain ⟨k', hk', rfl⟩ := h'
  rw [Option.some.inj (hk.symm.trans hk')]

open Contents

/-- What an update leaves was reached by updates and succeeds what was there, unless nothing was
recorded there. -/
theorem Updates.step {c c' : Contents} (h : Updates c c') (hc : c.Reached) :
    c'.Reached ∧ (c.files = [] ∨ c.Succeeds c') := by
  cases h with
  | @run w target path place request threshold before seed after =>
    have hbase := Lifecycle.base_reached place hc seed
    have hseeded : Lifecycle.base w.files place c request.seed = c ∨ c.files = [] := by
      cases hempty : c.files.isEmpty with
      | false => exact .inl (Lifecycle.base_of_recorded w.files place request.seed hempty)
      | true => exact .inr (List.isEmpty_iff.1 hempty)
    obtain ⟨d, hd, hcases⟩ := (Lifecycle.run_ends before hc request hbase threshold).shows
    obtain rfl := after.unique hd
    rcases hcases with rfl | rfl | rfl
    · exact ⟨hc, .inr (Std.Refl.refl c')⟩
    · refine ⟨hbase, hseeded.symm.imp id fun heq => ?_⟩
      rw [heq]
      exact Std.Refl.refl c
    · refine ⟨Lifecycle.inPlace_reached hbase, hseeded.symm.imp id fun heq => ?_⟩
      rw [heq] at hbase ⊢
      exact Lifecycle.inPlace_succeeds hbase
  | @apply w target path place cancel now plan before after =>
    obtain ⟨u, hu, hholds, -⟩ := Lifecycle.apply_ends before hc cancel now plan
    rw [hu] at after
    obtain rfl := after.unique hholds.shows
    exact ⟨Lifecycle.updated_reached hc, .inr (Lifecycle.updated_succeeds hc)⟩

/-! ## Runs of updates -/

/-- What one target holds after each of `n` updates. -/
structure TargetRun (n : Nat) (contents : Nat → Contents) : Prop where
  start : (contents 0).Reached
  step : ∀ i < n, Updates (contents i) (contents (i + 1))

namespace TargetRun

variable {n : Nat} {contents : Nat → Contents}

theorem reached (h : TargetRun n contents) : ∀ {i : Nat}, i ≤ n → (contents i).Reached
  | 0, _ => h.start
  | i + 1, hi => ((h.step i hi).step (h.reached (Nat.le_of_succ_le hi))).1

theorem succeeds (h : TargetRun n contents) {i : Nat} (hi : i < n) :
    (contents i).files = [] ∨ (contents i).Succeeds (contents (i + 1)) :=
  ((h.step i hi).step (h.reached (Nat.le_of_lt hi))).2

/-- Contents with a file precede all that come after them. -/
theorem precedes (h : TargetRun n contents) {i j : Nat} (hij : i ≤ j) (hj : j ≤ n)
    (hfiles : (contents i).files ≠ []) : (contents i).Precedes (contents j) := by
  induction hij with
  | refl => exact Succeeds.precedes (Std.Refl.refl (contents i))
  | @step j hij ih =>
    have hprecedes := ih (Nat.le_of_succ_le hj)
    obtain ⟨f, hf⟩ := List.exists_mem_of_ne_nil _ hfiles
    obtain ⟨f', hf', -⟩ := hprecedes.files f hf
    have hnext := (h.succeeds hj).resolve_left (List.ne_nil_of_mem hf')
    exact hprecedes.trans hnext.precedes

theorem files_ne_nil (h : TargetRun n contents) {i : Nat} (hi : i ≤ n) {id : Int} {k : EntityKey}
    (hk : (contents i).names.key? id = some k) : (contents i).files ≠ [] := by
  intro hfiles
  obtain ⟨e, he, -⟩ := mem_of_key? hk
  rw [(h.reached hi).entities_of_files hfiles] at he
  cases he

/-- An id stands for one key, before and after. -/
theorem key_eq (h : TargetRun n contents) {i j : Nat} (hij : i ≤ j) (hj : j ≤ n) {id : Int}
    {k k' : EntityKey} (hk : (contents i).names.key? id = some k)
    (hk' : (contents j).names.key? id = some k') : k' = k :=
  (h.precedes hij hj (h.files_ne_nil (Nat.le_trans hij hj) hk)).key_eq (h.reached (Nat.le_trans hij hj)).sound
    (h.reached hj).sound hk hk'

/-- A key that stays has one id. -/
theorem id_eq (h : TargetRun n contents) {i j : Nat} (hij : i ≤ j) (hj : j ≤ n) {k : EntityKey}
    (hstays : ∀ m, i ≤ m → m ≤ j → ∃ id, (contents m).names.key? id = some k) {id : Int}
    (hid : (contents i).names.key? id = some k) : (contents j).names.key? id = some k := by
  induction hij with
  | refl => exact hid
  | @step j hij ih =>
    have hbefore := ih (Nat.le_of_succ_le hj) fun m him hmj => hstays m him (Nat.le_succ_of_le hmj)
    obtain ⟨id', hid'⟩ := hstays (j + 1) (Nat.le_succ_of_le hij) (Nat.le_refl _)
    have hnext := (h.succeeds hj).resolve_left (h.files_ne_nil (Nat.le_of_succ_le hj) hbefore)
    have hsound := (h.reached (Nat.le_of_succ_le hj)).sound
    rwa [hnext.id_eq hsound (h.reached hj).sound hbefore hid'] at hid'

/-- **Ids are stable and never reused.** After the updates `i` to `j` of a run: a key that had an
entity all the time had it under one id; an id that stood for a key at one time and for a key at
another stood for one key; a file that was recorded is still recorded under its id, in the one
row with its path and the one row with its id, and an artifact is still one; and no id of an
entity is less than one. -/
theorem ids_stable (h : TargetRun n contents) {i j : Nat} (hij : i ≤ j) (hj : j ≤ n) :
    (∀ k, (∀ m, i ≤ m → m ≤ j → (contents m).Knows k) →
        (contents j).entityId? k = (contents i).entityId? k) ∧
      (∀ k k' id, (contents i).entityId? k = some id → (contents j).entityId? k' = some id → k' = k) ∧
      (∀ f ∈ (contents i).files, ∃ f' ∈ (contents j).files, f'.id = f.id ∧ f'.path = f.path ∧
        (f.kind = "artifact" → f'.kind = "artifact") ∧
        ∀ g ∈ (contents j).files, g.path = f.path ∨ g.id = f.id → g = f') ∧
      ∀ e ∈ (contents j).entities, 1 ≤ e.id ∧ e.id ≠ Store.noEntity := by
  have hi := (h.reached (Nat.le_trans hij hj)).sound
  have hsound := (h.reached hj).sound
  refine ⟨fun k hk => ?_, fun k k' id hk hk' => ?_, fun f hf => ?_, fun e he => ?_⟩
  · have hstays : ∀ m, i ≤ m → m ≤ j → ∃ id, (contents m).names.key? id = some k := fun m him hmj =>
      (h.reached (Nat.le_trans hmj hj)).sound.knows_iff.1 (hk m him hmj)
    obtain ⟨id, hid⟩ := hstays i (Nat.le_refl i) hij
    rw [hi.entityId?_eq_some.2 hid, hsound.entityId?_eq_some]
    exact h.id_eq hij hj hstays hid
  · exact h.key_eq hij hj (hi.entityId?_eq_some.1 hk) (hsound.entityId?_eq_some.1 hk')
  · obtain ⟨f', hf', hid, hpath, hkind⟩ := (h.precedes hij hj (List.ne_nil_of_mem hf)).files f hf
    refine ⟨f', hf', hid, hpath, hkind, fun g hg hsame => ?_⟩
    rcases hsame with hsame | hsame
    · exact List.inj_on_of_nodup_map hsound.filePaths hg hf' (hsame.trans hpath.symm)
    · exact List.inj_on_of_nodup_map hsound.fileIds hg hf' (hsame.trans hid.symm)
  · have hrange := (hsound.entityRange e he).1
    refine ⟨hrange, ?_⟩
    unfold Store.noEntity
    omega

end TargetRun

/-! An artifact declares a name, then another one, then the first one again. -/

namespace RenamedRun

/-- The artifact, with the name that it declares. -/
def declaring (name : String) : String :=
  "V \"1\"\nU v%b v.adb 00000000\nD v.adb 20240101000000 00000000\nX 1 v.adb\n1V1*" ++ name ++ "\n"

/-- The artifact and the target, in the `i`-th update. -/
def world (i : Nat) (c : Contents) : Workspace where
  files := ⟨["t"], [(["t"], .directory),
    (["t", "v.ali"], .bytes (declaring (if i = 1 then "G" else "F")).toUTF8.toList i),
    (["t", "x.db"], .store c 0)], []⟩
  connections := [{ path := "x.db", readOnly := false, place := some ["t", "x.db"], contents := .empty }]

def request (i : Nat) : UpdateRequest where
  files := [{ path := "v.ali" }]
  now := 1000 * i

/-- The second update is a plan that is carried out in place; the others run through all stages. -/
def updated (i : Nat) (c : Contents) : Workspace :=
  if i = 1 then
    (Lifecycle.apply 0 (fun _ => false) 2000 { stale := [⟨{ path := "/t/v.ali" }, 1, true⟩] }
      (world i c)).2
  else (Lifecycle.run 0 0 (request i) (world i c)).2

def contents : Nat → Contents
  | 0 => .empty
  | i + 1 => ((updated i (contents i)).connection? 0).elim .empty fun k =>
      ((updated i (contents i)).storeOf k).contents

theorem world_isTarget (i : Nat) (c : Contents) :
    (world i c).IsTarget 0 "x.db" (some ["t", "x.db"]) c :=
  { connection := ⟨_, rfl, ⟨rfl, rfl, rfl, rfl, rfl, rfl⟩, fun h => by cases h⟩
    file := fun p hp => ⟨0, by rw [← Option.some.inj hp]; rfl⟩
    unread := by simp [world]
    reading := by simp [world]
    inMemory := fun h => by cases h
    onDisk := fun p hp => by
      rw [← Option.some.inj hp]
      exact ⟨by decide, rfl⟩ }

theorem updated_shows {i : Nat} (h : ∃ c, (updated i (contents i)).Shows 0 c) :
    (updated i (contents i)).Shows 0 (contents (i + 1)) := by
  obtain ⟨c, k, hk, -⟩ := h
  exact ⟨k, hk, by simp only [contents, hk, Option.elim_some]⟩

theorem updates {i : Nat} (hc : (contents i).Reached) : Updates (contents i) (contents (i + 1)) := by
  have htarget := world_isTarget i (contents i)
  have hseed : ∀ s d, (request i).seed = some s → (world i (contents i)).files.index? s = some d →
      d.Reached := fun s d h => by cases h
  by_cases h1 : i = 1
  · have hshows : (updated i (contents i)).Shows 0 (contents (i + 1)) := by
      refine updated_shows ?_
      rw [updated, if_pos h1]
      obtain ⟨u, hu, hholds, -⟩ := Lifecycle.apply_ends htarget.toHolds hc (fun _ => false) 2000 _
      rw [hu]
      exact ⟨_, hholds.shows⟩
    rw [updated, if_pos h1] at hshows
    exact .apply _ _ _ htarget.toHolds hshows
  · have hshows : (updated i (contents i)).Shows 0 (contents (i + 1)) := by
      refine updated_shows ?_
      rw [updated, if_neg h1]
      have hends := Lifecycle.run_ends htarget hc (request i) (Lifecycle.base_reached _ hc hseed) 0
      obtain ⟨c, hshows, -⟩ := hends.shows
      exact ⟨c, hshows⟩
    rw [updated, if_neg h1] at hshows
    exact .run 0 htarget hseed hshows

theorem reached : ∀ i, (contents i).Reached
  | 0 => Contents.reached_empty
  | i + 1 => ((updates (reached i)).step (reached i)).1

theorem targetRun (n : Nat) : TargetRun n contents where
  start := Contents.reached_empty
  step i _ := updates (reached i)

def key (name : String) : EntityKey :=
  ⟨name, "v.adb", 1, 1⟩

/-- The first name has a new id after it was gone, and the id that it had stands for no other name. -/
theorem new_id_after_prune :
    (contents 1).entityId? (key "F") = some 1 ∧ (contents 2).entityId? (key "F") = none ∧
      (contents 2).entityId? (key "G") = some 2 ∧ (contents 3).entityId? (key "F") = some 3 ∧
      ∀ k, (contents 3).entityId? k = some 1 → k = key "F" := by
  have hids : (contents 1).entityId? (key "F") = some 1 ∧ (contents 2).entityId? (key "F") = none ∧
      (contents 2).entityId? (key "G") = some 2 ∧ (contents 3).entityId? (key "F") = some 3 := by
    decide +kernel
  obtain ⟨hF, hgone, hG, hnew⟩ := hids
  refine ⟨hF, hgone, hG, hnew, fun k hk => ?_⟩
  exact ((targetRun 3).ids_stable (by decide : 1 ≤ 3) (by decide)).2.1 (key "F") k 1 hF hk

end RenamedRun

end Crossref
