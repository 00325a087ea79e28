/-
Where the parameters of an entity come from. A unit that owns an entity writes each
of its parameters over the one with the same ordinal, but nothing takes away the
parameters with higher ordinals that another owner wrote before. So the parameters
of the newest owner are always there, and behind them there may stand parameters of
other owners. The list is whole and from one place exactly if there are none.
-/
import Crossref.Proofs.Artifact.Numbered
import Crossref.Proofs.Update.Ownership

namespace Crossref

/-! ## Units that give a parameter -/

namespace CompilationUnit

/-- The unit owns the key and says its parameter with the ordinal. -/
def Gives (u : CompilationUnit) (k : EntityKey) (i : Int) : Prop :=
  ∃ p ∈ u.ownParameters, p.owner = k ∧ (p.ordinal : Int) = i

variable {u : CompilationUnit} {k : EntityKey} {i : Int}

theorem Gives.owns (h : u.Gives k i) : u.Owns k := by
  obtain ⟨p, hp, rfl, -⟩ := h
  obtain ⟨d, hd, hkey⟩ := List.any_eq_true.1 (List.mem_filter.1 hp).2
  exact ⟨d, hd, of_decide_eq_true hkey⟩

theorem mem_parameterFacts_slot (path : String) :
    (∃ f ∈ u.parameterFacts path, (f.owner, f.ordinal) = (k, i)) ↔ u.Gives k i := by
  constructor
  · intro h
    obtain ⟨f, hf, hslot⟩ := h
    obtain ⟨p, hp, rfl⟩ := List.mem_map.1 hf
    obtain ⟨howner, hordinal⟩ := Prod.mk.inj hslot
    exact ⟨p, hp, howner, hordinal⟩
  · intro h
    obtain ⟨p, hp, rfl, rfl⟩ := h
    exact ⟨_, List.mem_map_of_mem hp, rfl⟩

/-- A unit that was read gives an entity parameters with the ordinals from 1 to some n. -/
theorem exists_arity (hread : Numbered Parameter.owner Parameter.ordinal u.parameters)
    (k : EntityKey) : ∃ n : Nat, ∀ i, u.Gives k i ↔ 1 ≤ i ∧ i ≤ n := by
  have howned : Numbered Parameter.owner Parameter.ordinal u.ownParameters := by
    intro p hp
    obtain ⟨hmem, howner⟩ := List.mem_filter.1 hp
    refine ⟨(hread p hmem).1, fun i hi hle => ?_⟩
    obtain ⟨q, hq, heq, hqi⟩ := (hread p hmem).2 i hi hle
    exact ⟨q, List.mem_filter.2 ⟨hq, heq ▸ howner⟩, heq, hqi⟩
  obtain ⟨n, hn⟩ := howned.exists_last k
  refine ⟨n, fun i => ⟨?_, ?_⟩⟩
  · intro h
    obtain ⟨p, hp, hk, rfl⟩ := h
    have hrange := (hn p.ordinal).1 ⟨p, hp, hk, rfl⟩
    omega
  · intro hi
    obtain ⟨p, hp, hk, hordinal⟩ := (hn i.toNat).2 (by omega)
    exact ⟨p, hp, hk, by omega⟩

end CompilationUnit

/-! ## Suppliers -/

/-- Of the units in the batch that give the parameter the last one belongs to the artifact at
`path`. -/
def ReadBatch.LastGiver (b : ReadBatch) (k : EntityKey) (i : Int) (path : String) : Prop :=
  ∃ u, IsLast (fun p => p.2.Gives k i) b.merged (path, u)

/-- The artifact at `path` gave the parameter last, and the parameter stands: the artifact was not
attempted again, no unit gave the parameter since, and the key has had a newest owner all along. -/
inductive Supplies (k : EntityKey) (i : Int) (path : String) : List ReadBatch → Prop
  | given {batches : List ReadBatch} {b : ReadBatch} (h : b.LastGiver k i path) :
      Supplies k i path (batches ++ [b])
  | kept {batches : List ReadBatch} {b : ReadBatch} (h : Supplies k i path batches)
      (hpath : path ∉ b.paths) (hnone : ∀ p ∈ b.merged, ¬p.2.Gives k i)
      (howned : ∃ o, NewestOwner (batches ++ [b]) k o) : Supplies k i path (batches ++ [b])

variable {batches : List ReadBatch} {b : ReadBatch} {k : EntityKey} {i : Int} {path : String}

theorem supplies_snoc :
    Supplies k i path (batches ++ [b]) ↔
      b.LastGiver k i path ∨
        Supplies k i path batches ∧ path ∉ b.paths ∧ (∀ p ∈ b.merged, ¬p.2.Gives k i) ∧
          ∃ o, NewestOwner (batches ++ [b]) k o := by
  constructor
  · generalize hall : batches ++ [b] = all
    intro h
    cases h with
    | given h =>
      obtain ⟨rfl, hb⟩ := List.append_inj' hall rfl
      exact .inl (List.singleton_inj.1 hb ▸ h)
    | kept h hpath hnone howned =>
      obtain ⟨rfl, hb⟩ := List.append_inj' hall rfl
      obtain rfl := List.singleton_inj.1 hb
      exact .inr ⟨h, hpath, hnone, howned⟩
  · intro h
    rcases h with h | ⟨h, hpath, hnone, howned⟩
    · exact .given h
    · exact .kept h hpath hnone howned

theorem not_supplies_nil : ¬Supplies k i path [] := by
  generalize hnil : ([] : List ReadBatch) = all
  intro h
  cases h <;> simp at hnil

/-- A key that a unit of the last batch owns has a newest owner. -/
theorem exists_newestOwner {p : String × CompilationUnit} (hp : p ∈ b.merged) (howns : p.2.Owns k) :
    ∃ o, NewestOwner (batches ++ [b]) k o := by
  obtain ⟨⟨o, u⟩, hlast⟩ := exists_isLast (P := fun p => p.2.Owns k) ⟨p, hp, howns⟩
  exact ⟨o, newestOwner_snoc.2 (.inr ⟨u, hlast⟩)⟩

/-- Who supplies a parameter has a unit that counts and gives it. -/
theorem Supplies.current (h : Supplies k i path batches) :
    ∃ u, (path, u) ∈ currentUnits batches ∧ u.Gives k i := by
  induction h with
  | @given batches b h =>
    obtain ⟨u, hlast⟩ := h
    rw [currentUnits_snoc, supersede]
    exact ⟨u, List.mem_append_right _ hlast.mem, hlast.1⟩
  | @kept batches b _ hpath _ _ ih =>
    obtain ⟨u, hu, hgives⟩ := ih
    rw [currentUnits_snoc, supersede]
    exact ⟨u, List.mem_append_left _ (List.mem_filter.2 ⟨hu, decide_eq_true hpath⟩), hgives⟩

namespace Ledger

variable {L : Ledger}

theorem Merges.isClaimed_iff (h : Merges batches L) :
    L.isClaimed k = true ↔ ∃ o, NewestOwner batches k o := by
  simp only [isClaimed, List.any_eq_true, decide_eq_true_eq]
  constructor
  · intro hex
    obtain ⟨f, hf, hk⟩ := hex
    exact ⟨f.artifact, h.claims.1 ⟨f, hf, hk, rfl⟩⟩
  · intro hex
    obtain ⟨o, ho⟩ := hex
    obtain ⟨f, hf, hk, -⟩ := h.claims.2 ho
    exact ⟨f, hf, hk⟩

/-- **The parameters are what the suppliers gave.** -/
theorem Merges.parameters (h : Merges batches L) :
    (∃ f ∈ L.parameters, (f.owner, f.ordinal) = (k, i) ∧ f.artifact = path) ↔
      Supplies k i path batches := by
  induction h with
  | nil => simp [not_supplies_nil]
  | @snoc batches L b touched hL ih =>
    have hartifact (p : String × CompilationUnit) : ∀ f ∈ p.2.parameterFacts p.1, f.artifact = p.1 := by
      intro f hf
      obtain ⟨q, -, rfl⟩ := List.mem_map.1 hf
      rfl
    have hgives (p : String × CompilationUnit) :
        (∃ f ∈ p.2.parameterFacts p.1, (f.owner, f.ordinal) = (k, i)) ↔ p.2.Gives k i :=
      CompilationUnit.mem_parameterFacts_slot p.1
    have hmerges : Merges (batches ++ [b]) (L.merge b touched) := hL.snoc
    have hput : (∃ f ∈ putAll (fun f : ParameterFact => (f.owner, f.ordinal))
          (L.parameters.filter fun f => f.artifact ∉ b.paths)
          (b.merged.flatMap fun p => p.2.parameterFacts p.1),
            (f.owner, f.ordinal) = (k, i) ∧ f.artifact = path) ↔
        ((∃ f ∈ L.parameters, (f.owner, f.ordinal) = (k, i) ∧ f.artifact = path) ∧ path ∉ b.paths ∧
          ∀ p ∈ b.merged, ¬p.2.Gives k i) ∨ b.LastGiver k i path :=
      exists_mem_putAll_said _ hartifact hgives
    rw [supplies_snoc, ← ih, parameters_merge]
    constructor
    · intro hex
      obtain ⟨f, hf, hslot, hpath⟩ := hex
      obtain ⟨hf, hclaimed⟩ := List.mem_filter.1 hf
      rcases hput.1 ⟨f, hf, hslot, hpath⟩ with ⟨hold, hnew⟩ | hlast
      · obtain rfl : f.owner = k := (Prod.mk.inj hslot).1
        exact .inr ⟨hold, hnew.1, hnew.2, hmerges.isClaimed_iff.1 hclaimed⟩
      · exact .inl hlast
    · intro hor
      have hclaimed : (L.merge b touched).isClaimed k = true := by
        refine hmerges.isClaimed_iff.2 ?_
        rcases hor with ⟨u, hlast⟩ | ⟨-, -, -, howned⟩
        · exact exists_newestOwner hlast.mem hlast.1.owns
        · exact howned
      have hold : ((∃ f ∈ L.parameters, (f.owner, f.ordinal) = (k, i) ∧ f.artifact = path) ∧
          path ∉ b.paths ∧ ∀ p ∈ b.merged, ¬p.2.Gives k i) ∨ b.LastGiver k i path := by
        rcases hor with hlast | ⟨hf, hpath, hnone, -⟩
        · exact .inr hlast
        · exact .inl ⟨hf, hpath, hnone⟩
      obtain ⟨f, hf, hslot, hpath⟩ := hput.2 hold
      obtain rfl : f.owner = k := (Prod.mk.inj hslot).1
      exact ⟨f, List.mem_filter.2 ⟨hf, hclaimed⟩, hslot, hpath⟩

/-- No owner has two parameters with one ordinal. -/
theorem Merges.slots (h : Merges batches L) :
    (L.parameters.map fun f => (f.owner, f.ordinal)).Nodup := by
  induction h with
  | nil => exact List.nodup_nil
  | snoc _ ih =>
    rw [parameters_merge]
    exact (nodup_putAll _ (ih.sublist (List.filter_sublist.map _))).sublist (List.filter_sublist.map _)

end Ledger

/-! ## The newest owner and the others -/

/-- The newest declaration of the key came with the unit, and stands. -/
def NewestUnit (batches : List ReadBatch) (k : EntityKey) (p : String × CompilationUnit) : Prop :=
  ∃ before b after, batches = before ++ b :: after ∧ IsLast (fun q => q.2.Owns k) b.merged p ∧
    ∀ b' ∈ after, p.1 ∉ b'.paths ∧ ∀ q ∈ b'.merged, ¬q.2.Owns k

theorem newestOwner_iff : NewestOwner batches k path ↔ ∃ u, NewestUnit batches k (path, u) := by
  constructor
  · intro h
    obtain ⟨before, b, after, hsplit, ⟨u, hlast⟩, hafter⟩ := h
    exact ⟨u, before, b, after, hsplit, hlast, hafter⟩
  · intro h
    obtain ⟨u, before, b, after, hsplit, hlast, hafter⟩ := h
    exact ⟨before, b, after, hsplit, ⟨u, hlast⟩, hafter⟩

theorem newestUnit_snoc {p : String × CompilationUnit} :
    NewestUnit (batches ++ [b]) k p ↔
      (NewestUnit batches k p ∧ p.1 ∉ b.paths ∧ ∀ q ∈ b.merged, ¬q.2.Owns k) ∨
        IsLast (fun q => q.2.Owns k) b.merged p :=
  exists_last_snoc

theorem NewestUnit.current {p : String × CompilationUnit} (h : NewestUnit batches k p) :
    p ∈ currentUnits batches ∧ p.2.Owns k := by
  obtain ⟨before, b, after, rfl, hlast, hafter⟩ := h
  exact ⟨mem_currentUnits.2 ⟨before, b, after, rfl, hlast.mem, fun b' hb' => (hafter b' hb').1⟩,
    hlast.1⟩

/-- The units of one artifact in a batch that was read are the same. -/
theorem ReadBatch.ReadFrom.unit_eq {t : FileTree} (h : b.ReadFrom t) {u v : CompilationUnit}
    (hu : (path, u) ∈ b.merged) (hv : (path, v) ∈ b.merged) : u = v := by
  obtain ⟨p, hp, hpu⟩ := List.mem_map.1 hu
  obtain ⟨q, hq, hqv⟩ := List.mem_map.1 hv
  obtain ⟨rfl, rfl⟩ := Prod.mk.inj hpu
  obtain ⟨hpath, rfl⟩ := Prod.mk.inj hqv
  have hread := h q hq
  rw [hpath, h p hp] at hread
  exact Except.ok.inj (Except.ok.inj hread)

/-- **Of an entity the newest owner supplies all parameters that it gives; all others come from
other artifacts.** -/
theorem NewestUnit.supplies (hread : ∀ b ∈ batches, ∃ t, b.ReadFrom t) {o : String}
    {u : CompilationUnit} (h : NewestUnit batches k (o, u)) :
    (u.Gives k i → (Supplies k i path batches ↔ path = o)) ∧
      (¬u.Gives k i → Supplies k i path batches → path ≠ o) := by
  induction batches using List.reverseRecOn with
  | nil =>
    obtain ⟨before, b, after, hsplit, -⟩ := h
    simp at hsplit
  | append_singleton batches b ih =>
    have hprefix : ∀ b ∈ batches, ∃ t, b.ReadFrom t := fun b' hb' => hread b' (by simp [hb'])
    obtain ⟨t, ht⟩ := hread b (by simp)
    have hnewest : ∃ o', NewestOwner (batches ++ [b]) k o' := ⟨o, newestOwner_iff.2 ⟨u, h⟩⟩
    rcases newestUnit_snoc.1 h with ⟨hold, hpath, hnone⟩ | hlast
    · -- the batch says nothing of the key
      have hgives : ∀ p ∈ b.merged, ¬p.2.Gives k i := fun p hp hg => hnone p hp hg.owns
      have hkept : Supplies k i path (batches ++ [b]) ↔
          Supplies k i path batches ∧ path ∉ b.paths := by
        rw [supplies_snoc]
        constructor
        · intro hor
          rcases hor with ⟨v, hv⟩ | ⟨hs, hp, -⟩
          · exact absurd hv.1 (hgives _ hv.mem)
          · exact ⟨hs, hp⟩
        · intro hboth
          exact .inr ⟨hboth.1, hboth.2, hgives, hnewest⟩
      obtain ⟨hgive, hother⟩ := ih hprefix hold
      rw [hkept]
      refine ⟨fun hg => ⟨fun hs => (hgive hg).1 hs.1, ?_⟩, fun hg hs => hother hg hs.1⟩
      intro heq
      exact ⟨(hgive hg).2 heq, heq ▸ hpath⟩
    · -- the batch has the newest owner
      have hmem : (o, u) ∈ b.merged := hlast.mem
      rw [supplies_snoc]
      constructor
      · intro hg
        have hgiver : IsLast (fun p => p.2.Gives k i) b.merged (o, u) := by
          obtain ⟨-, before, after, hsplit, hafter⟩ := hlast
          exact ⟨hg, before, after, hsplit, fun p hp hg' => hafter p hp hg'.owns⟩
        constructor
        · intro hor
          rcases hor with ⟨v, hv⟩ | ⟨-, -, hnone, -⟩
          · exact congrArg Prod.fst (hv.unique hgiver)
          · exact absurd hg (hnone _ hmem)
        · rintro rfl
          exact .inl ⟨u, hgiver⟩
      · intro hg hor heq
        subst heq
        rcases hor with ⟨v, hv⟩ | ⟨-, hp, -⟩
        · exact hg (ht.unit_eq hmem hv.mem ▸ hv.1)
        · exact hp (b.mem_paths_of_merged hmem)

/-! ## Rows -/

namespace Contents

/-- The artifact at the path declares the entity. -/
def DeclaredBy (c : Contents) (id : Int) (path : String) : Prop :=
  ∃ d ∈ c.declarations, d.entityId = id ∧ c.filePath? d.artifactId = some path

/-- The artifact at the path has a row for the parameter of the entity with the ordinal. -/
def Passes (c : Contents) (id i : Int) (path : String) : Prop :=
  ∃ r ∈ c.parameters, r.ownerId = id ∧ r.ordinal = i ∧ c.filePath? r.artifactId = some path

/-- The parameters of the entity are numbered from one without gap, and all come from the artifact
that declares it. -/
def Whole (c : Contents) (id : Int) : Prop :=
  ∃ d ∈ c.declarations, d.entityId = id ∧
    (∃ n : Nat, ∀ i, (∃ r ∈ c.parameters, r.ownerId = id ∧ r.ordinal = i) ↔ 1 ≤ i ∧ i ≤ n) ∧
      ∀ r ∈ c.parameters, r.ownerId = id → r.artifactId = d.artifactId

variable {c : Contents} {L : Ledger} {id : Int}

theorem Mirrors.declaredBy_iff (h : c.Mirrors L) (hk : c.names.key? id = some k) :
    c.DeclaredBy id path ↔ ∃ f ∈ L.claims, f.key = k ∧ f.artifact = path := by
  constructor
  · intro hex
    obtain ⟨d, hd, rfl, hpath⟩ := hex
    obtain ⟨f, hf, hreads⟩ := exists_right_of_forall₂ h.claims hd
    exact ⟨f, hf, Option.some.inj (hreads.key.symm.trans hk),
      Option.some.inj (hreads.artifact.symm.trans hpath)⟩
  · intro hex
    obtain ⟨f, hf, rfl, rfl⟩ := hex
    obtain ⟨d, hd, hreads⟩ := exists_left_of_forall₂ h.claims hf
    exact ⟨d, hd, h.sound.key_inj hreads.key hk, hreads.artifact⟩

theorem Mirrors.passes_iff (h : c.Mirrors L) (hk : c.names.key? id = some k) :
    c.Passes id i path ↔
      ∃ f ∈ L.parameters, (f.owner, f.ordinal) = (k, i) ∧ f.artifact = path := by
  constructor
  · intro hex
    obtain ⟨r, hr, rfl, rfl, hpath⟩ := hex
    obtain ⟨f, hf, hreads⟩ := exists_right_of_forall₂ h.parameters hr
    exact ⟨f, hf, Prod.ext (Option.some.inj (hreads.owner.symm.trans hk)) hreads.ordinal.symm,
      Option.some.inj (hreads.artifact.symm.trans hpath)⟩
  · intro hex
    obtain ⟨f, hf, hslot, rfl⟩ := hex
    obtain ⟨rfl, rfl⟩ := Prod.mk.inj hslot
    obtain ⟨r, hr, hreads⟩ := exists_left_of_forall₂ h.parameters hf
    exact ⟨r, hr, h.sound.key_inj hreads.owner hk, hreads.ordinal, hreads.artifact⟩

/-- Every row belongs to an artifact. -/
theorem Mirrors.exists_passes (h : c.Mirrors L) {r : ParameterRow} (hr : r ∈ c.parameters) :
    ∃ path, c.filePath? r.artifactId = some path ∧ c.Passes r.ownerId r.ordinal path := by
  obtain ⟨f, -, hreads⟩ := exists_right_of_forall₂ h.parameters hr
  exact ⟨f.artifact, hreads.artifact, r, hr, rfl, rfl, hreads.artifact⟩

theorem Mirrors.slots (h : c.Mirrors L) (hslots : (L.parameters.map fun f => (f.owner, f.ordinal)).Nodup) :
    (c.parameters.map fun r => (r.ownerId, r.ordinal)).Nodup := by
  let read (slot : Int × Int) : Option EntityKey × Int := (c.names.key? slot.1, slot.2)
  refine List.Nodup.of_map read ?_
  have hread : (c.parameters.map fun r => (r.ownerId, r.ordinal)).map read =
      (L.parameters.map fun f => (f.owner, f.ordinal)).map fun slot => (some slot.1, slot.2) := by
    rw [List.map_map, List.map_map]
    refine List.forall₂_eq_eq_eq ▸ List.forall₂_map_left_iff.2 (List.forall₂_map_right_iff.2 ?_)
    exact h.parameters.imp fun _ _ hreads => Prod.ext hreads.owner hreads.ordinal
  rw [hread]
  exact hslots.map fun _ _ heq => Prod.ext (Option.some.inj (Prod.mk.inj heq).1) (Prod.mk.inj heq).2

end Contents

/-! ## The parameters of a history -/

namespace History

/-- What the parameters of an entity are: the artifact at `o` declares it and gives the ordinals
from 1 to `n`; all of them are there, and whatever else is there comes from other artifacts. -/
structure ParametersFrom (h : History) (e : EntityRow) (k : EntityKey) (o : String) (n : Nat) : Prop where
  newest : ∃ u, NewestUnit h.batches k (o, u) ∧ (o, u) ∈ h.current ∧ ∀ i, u.Gives k i ↔ 1 ≤ i ∧ i ≤ n
  declared : ∀ p, h.store.contents.DeclaredBy e.id p ↔ p = o
  own : ∀ (i : Int) p, 1 ≤ i → i ≤ n → (h.store.contents.Passes e.id i p ↔ p = o)
  others : ∀ i p, h.store.contents.Passes e.id i p → ¬(1 ≤ i ∧ i ≤ n) →
    n < i ∧ p ≠ o ∧ ∃ v, (p, v) ∈ h.current ∧ v.Gives k i

theorem current_numbered {path : String} {steps : List UpdateStep} {p : String × CompilationUnit}
    (hp : p ∈ (run path steps).current) :
    Numbered Parameter.owner Parameter.ordinal p.2.parameters := by
  obtain ⟨content, hread⟩ := current_read hp
  exact Artifact.readBytes_numbered hread

/-- The parameters are whole exactly if no ordinal is higher than those of the newest owner. -/
theorem ParametersFrom.whole_iff {h : History} {e : EntityRow} {k : EntityKey} {o : String} {n : Nat}
    (hp : h.ParametersFrom e k o n) (hs : h.Sound) :
    h.store.contents.Whole e.id ↔
      ∀ r ∈ h.store.contents.parameters, r.ownerId = e.id → r.ordinal ≤ n := by
  obtain ⟨L, -, hm⟩ := hs.mirrors
  have hdeclares {d : DeclarationRow} (hd : d ∈ h.store.contents.declarations) (hid : d.entityId = e.id) :
      h.store.contents.filePath? d.artifactId = some o := by
    obtain ⟨f, -, hreads⟩ := exists_right_of_forall₂ hm.claims hd
    have hpath : h.store.contents.filePath? d.artifactId = some f.artifact := hreads.artifact
    rw [hpath, (hp.declared _).1 ⟨d, hd, hid, hpath⟩]
  constructor
  · intro hwhole r hr hid
    obtain ⟨d, hd, hdid, -, hartifact⟩ := hwhole
    by_contra hgt
    -- a row beyond the newest owner belongs to another artifact, but all rows belong to this one
    have howner : h.store.contents.Passes e.id r.ordinal o :=
      ⟨r, hr, hid, rfl, by rw [hartifact r hr hid, hdeclares hd hdid]⟩
    exact (hp.others _ _ howner fun hle => hgt hle.2).2.1 rfl
  · intro hle
    have hrange {r : ParameterRow} (hr : r ∈ h.store.contents.parameters) (hid : r.ownerId = e.id) :
        1 ≤ r.ordinal ∧ r.ordinal ≤ n := by
      obtain ⟨p, -, hpass⟩ := hm.exists_passes hr
      rw [hid] at hpass
      have hupper := hle r hr hid
      by_contra hout
      have hbeyond := (hp.others _ _ hpass hout).1
      omega
    obtain ⟨d, hd, hdid, hdpath⟩ := (hp.declared o).2 rfl
    refine ⟨d, hd, hdid, ⟨n, fun i => ⟨?_, ?_⟩⟩, ?_⟩
    · intro hex
      obtain ⟨r, hr, hid, rfl⟩ := hex
      exact hrange hr hid
    · intro hi
      obtain ⟨r, hr, hid, hordinal, -⟩ := (hp.own i o hi.1 hi.2).2 rfl
      exact ⟨r, hr, hid, hordinal⟩
    · intro r hr hid
      obtain ⟨p, hpath, hpass⟩ := hm.exists_passes hr
      rw [hid] at hpass
      obtain ⟨hi, hn⟩ := hrange hr hid
      obtain rfl := (hp.own _ p hi hn).1 hpass
      exact hm.sound.path_inj hpath hdpath

/-- **The parameters of an entity are those of its newest owner, and what other owners gave beyond
them.** So they are whole and from one place exactly if no ordinal is higher than those that the
newest owner gives. -/
theorem parameters_whole_iff (path : String) (steps : List UpdateStep) :
    let h := run path steps
    let c := h.store.contents
    (c.parameters.map fun r => (r.ownerId, r.ordinal)).Nodup ∧
      ∀ e ∈ c.entities, ∃ k, c.keyOf? e = some k ∧
        (∀ i p, c.Passes e.id i p ↔ Supplies k i p h.batches) ∧
        ∃ o n, h.ParametersFrom e k o n ∧
          (c.Whole e.id ↔ ∀ r ∈ c.parameters, r.ownerId = e.id → r.ordinal ≤ n) := by
  intro h c
  have hs : h.Sound := run_sound path steps
  obtain ⟨L, hL, hm⟩ := hs.mirrors
  refine ⟨hm.slots hL.slots, fun e he => ?_⟩
  obtain ⟨f, hf, hreads⟩ := exists_right_of_forall₂ hm.entities he
  have hkey : c.keyOf? e = some f.key :=
    Contents.keyOf?_eq_some.2 ⟨hreads.file, hreads.name, hreads.line, hreads.column⟩
  have hname : c.names.key? e.id = some f.key := (hm.sound.key?_of_mem he).trans hkey
  have hsupplies (i : Int) (p : String) : c.Passes e.id i p ↔ Supplies f.key i p h.batches :=
    (hm.passes_iff hname).trans hL.parameters
  have hdeclared (p : String) : c.DeclaredBy e.id p ↔ NewestOwner h.batches f.key p :=
    (hm.declaredBy_iff hname).trans hL.claims
  obtain ⟨o, ho⟩ := hL.isClaimed_iff.1 (hL.claimed.entities f hf)
  obtain ⟨u, hu⟩ := newestOwner_iff.1 ho
  have hcurrent : (o, u) ∈ h.current := hu.current.1
  obtain ⟨n, hn⟩ := CompilationUnit.exists_arity (current_numbered hcurrent) f.key
  have hread := batches_readFrom path steps
  have hfrom : h.ParametersFrom e f.key o n := by
    refine ⟨⟨u, hu, hcurrent, hn⟩, fun p => ?_, fun i p hi hle => ?_, fun i p hpass hout => ?_⟩
    · rw [hdeclared]
      refine ⟨fun hp => ?_, fun hp => hp ▸ ho⟩
      obtain ⟨f₁, hf₁, hk₁, rfl⟩ := hL.claims.2 hp
      obtain ⟨f₂, hf₂, hk₂, rfl⟩ := hL.claims.2 ho
      rw [List.inj_on_of_nodup_map hL.keyed.claims hf₁ hf₂ (hk₁.trans hk₂.symm)]
    · rw [hsupplies]
      exact (hu.supplies hread).1 ((hn i).2 ⟨hi, hle⟩)
    · have hother := (hsupplies i p).1 hpass
      obtain ⟨v, hv, hgives⟩ := hother.current
      obtain ⟨m, hm'⟩ := CompilationUnit.exists_arity (current_numbered hv) f.key
      have hi : 1 ≤ i := ((hm' i).1 hgives).1
      refine ⟨by omega, (hu.supplies hread).2 (fun hg => hout ((hn i).1 hg)) hother, v, hv, hgives⟩
  exact ⟨f.key, hkey, hsupplies, o, n, hfrom, hfrom.whole_iff hs⟩

end History

/-! ## Parameters that are left over -/

namespace Leftover

/-- Declares `F` with the parameters that are mentioned. -/
def declaring (mentions : String) : String :=
  "V \"1\"\nU v%b v.adb 00000000\nD v.adb 20240101000000 00000000\nX 1 v.adb\n1V1*F" ++ mentions ++ "\n"

def silent : String :=
  "V \"1\"\nU v%b v.adb 00000000\nD v.adb 20240101000000 00000000\n"

/-- The artifacts with the texts are new at the time, and all are merged. -/
def step (time : Int) (texts : List (String × String)) : UpdateStep where
  files :=
    { cwd := ["t"]
      nodes := (["t"], .directory) :: texts.map fun f => (["t", f.1], .bytes f.2.toUTF8.toList time) }
  cancel _ := false
  now := time
  plan := { stale := texts.map fun f => ⟨{ path := "/t/" ++ f.1 }, time, true⟩ }

/-- The second owner has one parameter fewer than the first one. -/
def together : List UpdateStep :=
  [step 1 [("a.ali", declaring " 2>3 2<9"), ("b.ali", declaring " 2>3")]]

/-- The first parameter goes with the second owner; then a third one without parameters owns `F`. -/
def apart : List UpdateStep :=
  [step 1 [("a.ali", declaring " 2>3 2<9")], step 2 [("b.ali", declaring " 2>3")],
    step 3 [("c.ali", declaring "")], step 4 [("b.ali", silent)]]

theorem not_whole_of_other {c : Contents} {id : Int} {r : ParameterRow} (hr : r ∈ c.parameters)
    (hid : r.ownerId = id) (hother : ∀ d ∈ c.declarations, d.entityId = id → r.artifactId ≠ d.artifactId) :
    ¬c.Whole id := by
  intro hwhole
  obtain ⟨d, hd, hdid, -, hartifact⟩ := hwhole
  exact hother d hd hdid (hartifact r hr hid)

/-- The parameters come from two artifacts; in the second history there is no first parameter. -/
theorem mixed :
    (∃ e ∈ (History.run "s" together).store.contents.entities,
        ¬(History.run "s" together).store.contents.Whole e.id) ∧
      ∃ e ∈ (History.run "s" apart).store.contents.entities,
        ¬(History.run "s" apart).store.contents.Whole e.id ∧
          ∃ r ∈ (History.run "s" apart).store.contents.parameters, r.ownerId = e.id ∧ r.ordinal = 2 ∧
            ∀ r' ∈ (History.run "s" apart).store.contents.parameters, r'.ordinal ≠ 1 := by
  have hother (steps : List UpdateStep) (h : steps ∈ [together, apart]) :
      ∃ e ∈ (History.run "s" steps).store.contents.entities,
        ∃ r ∈ (History.run "s" steps).store.contents.parameters, r.ownerId = e.id ∧ r.ordinal = 2 ∧
          ∀ d ∈ (History.run "s" steps).store.contents.declarations, d.entityId = e.id →
            r.artifactId ≠ d.artifactId := by
    revert steps
    decide +kernel
  have hgap : ∀ r ∈ (History.run "s" apart).store.contents.parameters, r.ordinal ≠ 1 := by
    decide +kernel
  constructor
  · obtain ⟨e, he, r, hr, hid, -, hrows⟩ := hother together (by simp)
    exact ⟨e, he, not_whole_of_other hr hid hrows⟩
  · obtain ⟨e, he, r, hr, hid, htwo, hrows⟩ := hother apart (by simp)
    exact ⟨e, he, not_whole_of_other hr hid hrows, r, hr, hid, htwo, hgap⟩

end Leftover

end Crossref
