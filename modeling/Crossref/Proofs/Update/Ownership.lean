/-
Which entities there are. A declaration is remembered by its newest owner only:
the unit that registered the key last, of all units ever merged. An entity is
there exactly as long as its newest owner counts. Another artifact may still own
the key when the newest owner is read again without it; the entity is then gone
although a unit that counts owns it.
-/
import Crossref.Proofs.Store.Links
import Crossref.Proofs.Update.History

namespace Crossref

/-! ## Owners -/

/-- Of the units in the batch that own the key the last one belongs to the artifact at `path`. -/
def ReadBatch.LastOwner (b : ReadBatch) (k : EntityKey) (path : String) : Prop :=
  ∃ u, IsLast (fun p => p.2.Owns k) b.merged (path, u)

/-- The newest declaration of the key came from the artifact at `path`, and stands. -/
def NewestOwner (batches : List ReadBatch) (k : EntityKey) (path : String) : Prop :=
  ∃ before b after, batches = before ++ b :: after ∧ b.LastOwner k path ∧
    ∀ b' ∈ after, path ∉ b'.paths ∧ ∀ p ∈ b'.merged, ¬p.2.Owns k

theorem newestOwner_snoc {batches : List ReadBatch} {b : ReadBatch} {k : EntityKey} {path : String} :
    NewestOwner (batches ++ [b]) k path ↔
      (NewestOwner batches k path ∧ path ∉ b.paths ∧ ∀ p ∈ b.merged, ¬p.2.Owns k) ∨
        b.LastOwner k path :=
  exists_last_snoc

/-! ## Claims -/

/-- **The claims are the newest owners that stand.** -/
theorem Ledger.Merges.claims {L : Ledger} {batches : List ReadBatch} (h : Merges batches L)
    {k : EntityKey} {path : String} :
    (∃ f ∈ L.claims, f.key = k ∧ f.artifact = path) ↔ NewestOwner batches k path := by
  induction h with
  | nil => simp [NewestOwner]
  | @snoc batches L b touched _ ih =>
    have hartifact (p : String × CompilationUnit) : ∀ f ∈ p.2.claims p.1, f.artifact = p.1 := by
      intro f hf
      obtain ⟨d, -, rfl⟩ := List.mem_map.1 hf
      rfl
    have howns (p : String × CompilationUnit) : (∃ f ∈ p.2.claims p.1, f.key = k) ↔ p.2.Owns k :=
      CompilationUnit.mem_claims_key p.1
    rw [newestOwner_snoc, ← ih, claims_merge]
    exact exists_mem_putAll_said (·.key) hartifact howns

/-! ## Entities -/

namespace Contents

variable {c : Contents} {L : Ledger}

/-- An entity is there exactly if its key is claimed. -/
theorem Mirrors.knows_iff_claimed (h : c.Mirrors L) (hclaimed : L.Claimed) {k : EntityKey} :
    c.Knows k ↔ ∃ f ∈ L.claims, f.key = k := by
  constructor
  · intro hk
    obtain ⟨e, he, hkey⟩ := List.any_eq_true.1 (h.knows_iff.1 hk)
    have hc := hclaimed.entities e he
    rw [of_decide_eq_true hkey] at hc
    simpa [Ledger.isClaimed] using hc
  · intro hex
    obtain ⟨f, hf, rfl⟩ := hex
    obtain ⟨d, -, hd⟩ := exists_left_of_forall₂ h.claims hf
    exact h.sound.knows_iff.2 ⟨_, hd.key⟩

end Contents

/-! ## The entities of a history -/

/-- The newest owner is a unit that counts. -/
theorem NewestOwner.current {batches : List ReadBatch} {k : EntityKey} {path : String}
    (h : NewestOwner batches k path) : ∃ u, (path, u) ∈ currentUnits batches ∧ u.Owns k := by
  obtain ⟨before, b, after, rfl, ⟨u, hlast⟩, hafter⟩ := h
  exact ⟨u, mem_currentUnits.2 ⟨before, b, after, rfl, hlast.mem, fun b' hb' => (hafter b' hb').1⟩,
    hlast.1⟩

namespace History

/-- A unit that counts owns the key. -/
def Owned (h : History) (k : EntityKey) : Prop :=
  ∃ p ∈ h.current, p.2.Owns k

instance (h : History) (k : EntityKey) : Decidable (h.Owned k) :=
  inferInstanceAs (Decidable (∃ p ∈ h.current, p.2.Owns k))

theorem Sound.knows_iff {h : History} (hs : h.Sound) {k : EntityKey} :
    h.store.contents.Knows k ↔ ∃ path, NewestOwner h.batches k path := by
  obtain ⟨L, hL, hm⟩ := hs.mirrors
  rw [hm.knows_iff_claimed hL.claimed]
  constructor
  · intro hex
    obtain ⟨f, hf, rfl⟩ := hex
    exact ⟨f.artifact, hL.claims.1 ⟨f, hf, rfl, rfl⟩⟩
  · intro hex
    obtain ⟨path, hnew⟩ := hex
    obtain ⟨f, hf, hk, -⟩ := hL.claims.2 hnew
    exact ⟨f, hf, hk⟩

/-- **An entity is there exactly if its newest owner stands.** The artifacts with a record are
those with a unit that counts, and a unit that counts owns the entity. Conversely, entities and
owned keys agree exactly where some newest owner stands for every key that is owned. -/
theorem knows_iff_newestOwner (path : String) (steps : List UpdateStep) (k : EntityKey) :
    let h := run path steps
    (h.store.contents.Knows k ↔ ∃ p, NewestOwner h.batches k p) ∧
      (∀ p, h.store.contents.Indexed p ↔ ∃ u, (p, u) ∈ h.current) ∧
      (h.store.contents.Knows k → h.Owned k) ∧
      ((h.store.contents.Knows k ↔ h.Owned k) ↔ (h.Owned k → ∃ p, NewestOwner h.batches k p)) := by
  intro h
  have hs : h.Sound := run_sound path steps
  have howned : h.store.contents.Knows k → h.Owned k := fun hk => by
    obtain ⟨p, hp⟩ := hs.knows_iff.1 hk
    obtain ⟨u, hu, howns⟩ := hp.current
    exact ⟨_, hu, howns⟩
  refine ⟨hs.knows_iff, fun p => hs.indexed_iff, howned, ?_⟩
  rw [← hs.knows_iff]
  exact ⟨Iff.mpr, fun hback => ⟨howned, hback⟩⟩

end History

/-! ## A key that is forgotten -/

namespace Forgotten

def declaring : String :=
  "V \"1\"\nU v%b v.adb 00000000\nD v.adb 20240101000000 00000000\nX 1 v.adb\n1V1*F 2r2\n"

def silent : String :=
  "V \"1\"\nU v%b v.adb 00000000\nD v.adb 20240101000000 00000000\n"

def key : EntityKey :=
  ⟨"F", "v.adb", 1, 1⟩

/-- Two artifacts of one unit; the second one says `text`. -/
def files (text : String) (mtime : Int) : FileTree where
  cwd := ["t"]
  nodes := [(["t"], .directory), (["t", "a.ali"], .bytes declaring.toUTF8.toList 1),
    (["t", "b.ali"], .bytes text.toUTF8.toList mtime)]

def step (text : String) (mtime : Int) (stale : StaleArtifact) : UpdateStep where
  files := files text mtime
  cancel _ := false
  now := mtime
  plan := { stale := [stale] }

/-- Both artifacts are merged; then the second one is merged again and says nothing any more. -/
def steps : List UpdateStep :=
  [step declaring 2 ⟨{ path := "/t/a.ali" }, 1, true⟩,
    step declaring 2 ⟨{ path := "/t/b.ali" }, 2, true⟩,
    step silent 3 ⟨{ path := "/t/b.ali" }, 3, false⟩]

/-- The first artifact still owns the key, but the entity is gone. -/
theorem owned_not_known :
    (History.run "s" steps).Owned key ∧ ¬(History.run "s" steps).store.contents.Knows key := by
  decide +kernel

end Forgotten

end Crossref
