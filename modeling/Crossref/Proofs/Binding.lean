/-
What keys without a name are bound to. A parameter may be known by its place alone;
then it is bound to the first entity that is seen there, and from then on it goes
by the key of that entity. A bound ledger holds for each parameter the key that its
row reads as. Merging a batch binds twice: the parameters of the batch among the
keys that the batch owns and those that were there before, and whatever is still
without a name among the entities that are there afterwards.

The law of `Ledger.Binds.origin`: a parameter goes by the first key at its place
among the keys that its own batch owned, the entities that were there right before
that batch, right after it, and after each later batch.
-/
import Mathlib.Data.List.Infix
import Crossref.Proofs.Artifact.Named
import Crossref.Proofs.Merges

namespace Crossref

/-! ## Keys among others -/

namespace EntityKey

/-- What a key stands for among keys: without a name, for the first one at its place. -/
def among (k : EntityKey) (keys : List EntityKey) : EntityKey :=
  if k.name = "" then (keys.find? (·.location = k.location)).getD k else k

variable {k : EntityKey} {keys more : List EntityKey}

theorem among_of_named (h : k.name ≠ "") (keys : List EntityKey) : k.among keys = k :=
  if_neg h

theorem among_of_none (h : keys.find? (·.location = k.location) = none) : k.among keys = k := by
  unfold among
  rw [h, Option.getD_none, ite_self]

theorem among_of_some (hk : k.name = "") {k' : EntityKey}
    (h : keys.find? (·.location = k.location) = some k') : k.among keys = k' := by
  unfold among
  rw [h, if_pos hk, Option.getD_some]

theorem location_among (k : EntityKey) (keys : List EntityKey) :
    (k.among keys).location = k.location := by
  by_cases hk : k.name = ""
  · cases h : keys.find? (·.location = k.location) with
    | none => rw [among_of_none h]
    | some k' =>
      rw [among_of_some hk h]
      exact of_decide_eq_true
        (List.find?_some (p := fun e : EntityKey => decide (e.location = k.location)) h)
  · rw [among_of_named hk]

/-- What is found first depends on the keys at the place alone. -/
theorem among_congr (h : keys.find? (·.location = k.location) = more.find? (·.location = k.location)) :
    k.among keys = k.among more := by
  unfold among
  rw [h]

/-- A key that was found among some keys is not looked for any more. -/
theorem among_among (h : ∀ k' ∈ keys, k'.name ≠ "") : (k.among keys).among more = k.among (keys ++ more) := by
  by_cases hk : k.name = ""
  · cases hfind : keys.find? (·.location = k.location) with
    | none =>
      rw [among_of_none hfind]
      exact among_congr (by rw [List.find?_append, hfind, Option.none_or])
    | some k' =>
      rw [among_of_some hk hfind, among_of_named (h k' (List.mem_of_find?_eq_some hfind)),
        among_of_some hk (by rw [List.find?_append, hfind, Option.some_or])]
  · rw [among_of_named hk, among_of_named hk, among_of_named hk]

end EntityKey

/-! ## Bound units -/

def Parameter.bound (p : Parameter) (keys : List EntityKey) : Parameter :=
  { p with key := p.key.among keys }

/-- The unit with the keys of its parameters bound. -/
def CompilationUnit.bound (u : CompilationUnit) (keys : List EntityKey) : CompilationUnit :=
  { u with parameters := u.parameters.map (·.bound keys) }

def ReadBatch.bound (b : ReadBatch) (keys : List EntityKey) : ReadBatch :=
  { b with parsed := b.parsed.map fun p => (p.1, p.2.bound keys) }

/-- The keys that the units of a batch own, in the order in which they are registered. -/
def ReadBatch.ownedKeys (b : ReadBatch) : List EntityKey :=
  (b.units.flatMap (·.owned)).map (·.key)

theorem CompilationUnit.ownParameters_bound (u : CompilationUnit) (keys : List EntityKey) :
    (u.bound keys).ownParameters = u.ownParameters.map (·.bound keys) :=
  List.filter_map

theorem CompilationUnit.parameterFacts_bound (u : CompilationUnit) (keys : List EntityKey)
    (path : String) :
    (u.bound keys).parameterFacts path = u.ownParameters.map fun p => (p.bound keys).fact path := by
  rw [parameterFacts, ownParameters_bound, List.map_map]
  rfl

theorem owned_named {units : List CompilationUnit} (h : ∀ u ∈ units, u.Named) :
    ∀ k ∈ (units.flatMap (·.owned)).map (·.key), k.name ≠ "" := by
  intro k hk
  obtain ⟨d, hd, rfl⟩ := List.mem_map.1 hk
  obtain ⟨u, hu, hd⟩ := List.mem_flatMap.1 hd
  exact (h u hu).declarations d (List.mem_of_mem_filter hd)

namespace ReadBatch

variable (b : ReadBatch) (keys : List EntityKey)

theorem attempted_bound : (b.bound keys).attempted = b.attempted := by
  simp [attempted, bound, Function.comp_def]

theorem paths_bound : (b.bound keys).paths = b.paths := by
  rw [paths, attempted_bound, paths]

theorem merged_bound : (b.bound keys).merged = b.merged.map fun p => (p.1, p.2.bound keys) := by
  simp [merged, bound, Function.comp_def]

theorem units_bound : (b.bound keys).units = b.units.map (·.bound keys) := by
  simp [units, bound, Function.comp_def]

theorem owned_bound : (b.bound keys).units.flatMap (·.owned) = b.units.flatMap (·.owned) := by
  rw [units_bound, List.flatMap_map]
  rfl

theorem ownedKeys_bound : (b.bound keys).ownedKeys = b.ownedKeys := by
  rw [ownedKeys, owned_bound, ownedKeys]

variable {b}

theorem ownedKeys_named (h : ∀ u ∈ b.units, u.Named) : ∀ k ∈ b.ownedKeys, k.name ≠ "" :=
  owned_named h

end ReadBatch

/-! ## Keys that are there -/

/-- A key comes behind the others unless it is there. -/
def addKey (keys : List EntityKey) (k : EntityKey) : List EntityKey :=
  if k ∈ keys then keys else keys ++ [k]

theorem mem_addKeys {k : EntityKey} {new keys : List EntityKey} (h : k ∈ new.foldl addKey keys) :
    k ∈ keys ∨ k ∈ new := by
  induction new generalizing keys with
  | nil => exact .inl h
  | cons k' new ih =>
    rcases ih h with h | h
    · unfold addKey at h
      split at h
      · exact .inl h
      · rcases List.mem_append.1 h with h | h
        · exact .inl h
        · exact .inr (List.mem_singleton.1 h ▸ List.mem_cons_self)
    · exact .inr (List.mem_cons_of_mem _ h)

/-- Keys that are there already are found before the ones that are added. -/
theorem find?_addKeys {p : EntityKey → Bool} (new keys : List EntityKey) :
    (new.foldl addKey keys).find? p = (keys ++ new).find? p := by
  induction new generalizing keys with
  | nil => rw [List.foldl_nil, List.append_nil]
  | cons k new ih =>
    have hone : (addKey keys k).find? p = (keys ++ [k]).find? p := by
      unfold addKey
      split
      next hk =>
        rw [List.find?_append]
        cases hfind : keys.find? p with
        | none =>
          have hp : p k = false := by simpa using List.find?_eq_none.1 hfind k hk
          simp [hp]
        | some k' => rfl
      next => rfl
    rw [List.foldl_cons, ih, List.find?_append, hone, ← List.find?_append, List.append_assoc,
      List.singleton_append]

namespace Ledger

/-- The keys of the entities, in the order of their ids. -/
def keys (L : Ledger) : List EntityKey :=
  L.entities.map (·.key)

variable {L : Ledger}

theorem keys_register (L : Ledger) (d : Declaration) : (L.register d).keys = addKey L.keys d.key := by
  have hmem : L.entities.any (·.key = d.key) = decide (d.key ∈ L.keys) := by
    rw [Bool.eq_iff_iff, List.any_eq_true, decide_eq_true_iff, keys, List.mem_map]
    simp only [decide_eq_true_eq]
  have hkeys : (L.register d).keys = (if L.entities.any (·.key = d.key) then
      L.entities.map fun e => if e.key = d.key then { e with kind := d.kind } else e
      else L.entities ++ [⟨d.key, d.kind⟩]).map (·.key) := rfl
  rw [hkeys, hmem, addKey]
  by_cases h : d.key ∈ L.keys
  · rw [if_pos (decide_eq_true h), if_pos h, List.map_map]
    refine List.map_congr_left fun e _ => ?_
    simp only [Function.comp_apply]
    split <;> rfl
  · rw [if_neg (by simpa using h), if_neg h, List.map_append]
    rfl

theorem keys_registerAll (ds : List Declaration) (L : Ledger) :
    (ds.foldl register L).keys = (ds.map (·.key)).foldl addKey L.keys := by
  induction ds generalizing L with
  | nil => rfl
  | cons d ds ih => rw [List.foldl_cons, ih, keys_register, List.map_cons, List.foldl_cons]

/-- After a merge those keys are there that were there or are owned, as far as they are claimed. -/
theorem keys_merge (L : Ledger) (b : ReadBatch) (touched : List (String × Int)) :
    (L.merge b touched).keys =
      (b.ownedKeys.foldl addKey L.keys).filter fun k => (L.merge b touched).isClaimed k := by
  have hpurge (L : Ledger) : (b.attempted.foldl (fun L s => L.purge s.artifact.path) L).keys = L.keys :=
    foldl_keeps (g := keys) (f := fun L (s : StaleArtifact) => L.purge s.artifact.path)
      (fun _ _ => rfl) b.attempted L
  have htouch (L : Ledger) : (touched.foldl (fun L t => L.touch t.1 t.2) L).keys = L.keys :=
    foldl_keeps (g := keys) (f := fun L (t : String × Int) => L.touch t.1 t.2)
      (fun _ _ => rfl) touched L
  have hwrite (L : Ledger) : (b.parsed.foldl (fun L p => L.write p.1 p.2) L).keys = L.keys :=
    foldl_keeps (g := keys) (f := fun L (p : StaleArtifact × CompilationUnit) => L.write p.1 p.2)
      (fun _ _ => rfl) b.parsed L
  have hsettle (L : Ledger) : L.settle.keys = L.keys.filter fun k => L.isClaimed k := by
    rw [keys, keys, List.filter_map]
    rfl
  change (settle (b.parsed.foldl _ (List.foldl register (touched.foldl _ (b.attempted.foldl _ L)) _))).keys = _
  rw [hsettle, hwrite, keys_registerAll, htouch, hpurge]
  rfl

/-- Merging a bound batch registers what the batch registers, and writes the bound units. -/
theorem merge_bound (L : Ledger) (b : ReadBatch) (touched : List (String × Int)) (keys : List EntityKey) :
    L.merge (b.bound keys) touched =
      (b.parsed.foldl (fun L p => L.write p.1 (p.2.bound keys))
        ((b.units.flatMap (·.owned)).foldl register
          (touched.foldl (fun L t => L.touch t.1 t.2)
            (b.attempted.foldl (fun L s => L.purge s.artifact.path) L)))).settle := by
  have hwrite (L : Ledger) : (b.bound keys).parsed.foldl (fun L p => L.write p.1 p.2) L =
      b.parsed.foldl (fun L p => L.write p.1 (p.2.bound keys)) L :=
    List.foldl_map
  unfold merge
  rw [ReadBatch.attempted_bound, ReadBatch.owned_bound]
  exact congrArg settle (hwrite _)

end Ledger

/-- The keys of the entities after the batches, in the order of their ids. -/
def knownKeys (batches : List ReadBatch) : List EntityKey :=
  (batches.foldl (fun L b => L.merge b []) ({} : Ledger)).keys

/-! ## Bound ledgers -/

namespace Ledger

/-- Binds what is still without a name to the entities that are there. -/
def bindPending (L : Ledger) : Ledger :=
  { L with parameters := L.parameters.map fun f => { f with key := f.key.among L.keys } }

/-- Merges a batch into a bound ledger. -/
def bind (L : Ledger) (b : ReadBatch) (touched : List (String × Int)) : Ledger :=
  (L.merge (b.bound (b.ownedKeys ++ L.keys)) touched).bindPending

/-- A bound ledger that merging the batches one after the other may lead to. -/
inductive Binds : List ReadBatch → Ledger → Prop
  | nil : Binds [] {}
  | snoc {batches L b touched} (h : Binds batches L) : Binds (batches ++ [b]) (L.bind b touched)

variable {L : Ledger} {batches : List ReadBatch} {b : ReadBatch} {touched : List (String × Int)}

theorem keys_bind : (L.bind b touched).keys =
    (b.ownedKeys.foldl addKey L.keys).filter fun k => (L.bind b touched).isClaimed k := by
  have h := L.keys_merge (b.bound (b.ownedKeys ++ L.keys)) touched
  rw [ReadBatch.ownedKeys_bound] at h
  exact h

theorem claims_bind : (L.bind b touched).claims =
    putAll (·.key) (L.claims.filter fun f => f.artifact ∉ b.paths)
      (b.merged.flatMap fun p => p.2.claims p.1) := by
  refine (L.claims_merge (b.bound (b.ownedKeys ++ L.keys)) touched).trans ?_
  rw [ReadBatch.paths_bound, ReadBatch.merged_bound, List.flatMap_map]
  rfl

/-- Binding changes neither which entities there are nor who claims them. -/
theorem Binds.known (h : Binds batches L) : L.keys = knownKeys batches := by
  let merges (batches : List ReadBatch) : Ledger := batches.foldl (fun L b => L.merge b []) {}
  suffices hboth : L.keys = (merges batches).keys ∧ L.claims = (merges batches).claims from hboth.1
  induction h with
  | nil => exact ⟨rfl, rfl⟩
  | @snoc batches L b touched _ ih =>
    have hmerges : merges (batches ++ [b]) = (merges batches).merge b [] := by simp [merges]
    have hclaims : (L.bind b touched).claims = (merges (batches ++ [b])).claims := by
      rw [hmerges, claims_bind, claims_merge, ih.2]
    refine ⟨?_, hclaims⟩
    have hclaimed (k : EntityKey) :
        (L.bind b touched).isClaimed k = ((merges batches).merge b []).isClaimed k := by
      rw [isClaimed, isClaimed, hclaims, hmerges]
    rw [keys_bind, hmerges, keys_merge, ih.1]
    exact List.filter_congr fun k _ => hclaimed k

theorem keys_merge_named (hL : ∀ k ∈ L.keys, k.name ≠ "") (hb : ∀ k ∈ b.ownedKeys, k.name ≠ "") :
    ∀ k ∈ (L.merge b touched).keys, k.name ≠ "" := by
  intro k hk
  rw [keys_merge] at hk
  exact (mem_addKeys (List.mem_of_mem_filter hk)).elim (hL k) (hb k)

theorem Binds.keys_named (h : Binds batches L) (hnamed : ∀ b ∈ batches, ∀ u ∈ b.units, u.Named) :
    ∀ k ∈ L.keys, k.name ≠ "" := by
  induction h with
  | nil => simp [keys]
  | @snoc batches L b touched _ ih =>
    have hb := ReadBatch.ownedKeys_named (hnamed b (by simp))
    refine keys_merge_named (ih fun b' hb' => hnamed b' (by simp [hb'])) ?_
    rwa [ReadBatch.ownedKeys_bound]

theorem exists_binds (batches : List ReadBatch) : ∃ L, Binds batches L := by
  induction batches using List.reverseRecOn with
  | nil => exact ⟨_, .nil⟩
  | append_singleton batches b ih =>
    obtain ⟨L, hL⟩ := ih
    exact ⟨L.bind b [], hL.snoc⟩

/-- The parameters after a merge: those of the batch among what is owned and what was there, and then
all of them among what is there. -/
theorem parameters_bind : (L.bind b touched).parameters =
    ((putAll (fun p => (p.owner, p.ordinal)) (L.parameters.filter fun f => f.artifact ∉ b.paths)
      (b.merged.flatMap fun p => (p.2.bound (b.ownedKeys ++ L.keys)).parameterFacts p.1)).filter
        fun f => (L.bind b touched).isClaimed f.owner).map
          fun f => { f with key := f.key.among (L.bind b touched).keys } := by
  have h := L.parameters_merge (b.bound (b.ownedKeys ++ L.keys)) touched
  rw [ReadBatch.paths_bound, ReadBatch.merged_bound, List.flatMap_map] at h
  exact congrArg (List.map _) h

end Ledger

/-! ## Where a parameter comes from -/

/-- The parameter of the owner with the ordinal was given by `p`, last in a unit of the artifact at the
path; the unit was merged with the batch `b`, and the artifact was not attempted again after it. -/
structure Origin (batches : List ReadBatch) (path : String) (owner : EntityKey) (ordinal : Int)
    (before : List ReadBatch) (b : ReadBatch) (after : List ReadBatch) (u : CompilationUnit)
    (p : Parameter) : Prop where
  split : batches = before ++ b :: after
  merged : (path, u) ∈ b.merged
  stands : ∀ b' ∈ after, path ∉ b'.paths
  last : IsLast (fun q => q.owner = owner ∧ (q.ordinal : Int) = ordinal) u.ownParameters p

/-- What a parameter without a name may be bound to, in the order in which it is seen: the keys that
its batch owns, and the entities right before the batch, right after it and after each later one. -/
def candidates (before : List ReadBatch) (b : ReadBatch) (after : List ReadBatch) : List EntityKey :=
  b.ownedKeys ++ (b :: after).inits.flatMap fun seen => knownKeys (before ++ seen)

section
variable {before after : List ReadBatch} {b b' : ReadBatch}

theorem candidates_nil :
    candidates before b [] = (b.ownedKeys ++ knownKeys before) ++ knownKeys (before ++ [b]) := by
  simp [candidates]

theorem candidates_snoc :
    candidates before b (after ++ [b']) =
      candidates before b after ++ knownKeys ((before ++ b :: after) ++ [b']) := by
  have hinits : (b :: (after ++ [b'])).inits = (b :: after).inits ++ [(b :: after) ++ [b']] := by
    rw [← List.cons_append, List.inits_append]
    simp
  rw [candidates, hinits, List.flatMap_append, candidates]
  simp

theorem Origin.snoc {batches : List ReadBatch} {path : String} {owner : EntityKey} {ordinal : Int}
    {u : CompilationUnit} {p : Parameter} (h : Origin batches path owner ordinal before b after u p)
    (hpath : path ∉ b'.paths) :
    Origin (batches ++ [b']) path owner ordinal before b (after ++ [b']) u p where
  split := by rw [h.split]; simp
  merged := h.merged
  stands b'' hb'' := by
    rcases List.mem_append.1 hb'' with hb'' | hb''
    · exact h.stands b'' hb''
    · rwa [List.mem_singleton.1 hb'']
  last := h.last

theorem knownKeys_named {batches : List ReadBatch} (hnamed : ∀ b ∈ batches, ∀ u ∈ b.units, u.Named) :
    ∀ k ∈ knownKeys batches, k.name ≠ "" := by
  obtain ⟨L, hL⟩ := Ledger.exists_binds batches
  exact hL.known ▸ hL.keys_named hnamed

theorem candidates_named (hnamed : ∀ b' ∈ before ++ b :: after, ∀ u ∈ b'.units, u.Named) :
    ∀ k ∈ candidates before b after, k.name ≠ "" := by
  intro k hk
  rcases List.mem_append.1 hk with hk | hk
  · exact ReadBatch.ownedKeys_named (hnamed b (by simp)) k hk
  · obtain ⟨seen, hseen, hk⟩ := List.mem_flatMap.1 hk
    refine knownKeys_named (fun b' hb' => hnamed b' ?_) k hk
    have hseen : seen ⊆ b :: after := ((List.mem_inits _ _).1 hseen).subset
    exact (List.mem_append.1 hb').elim (List.mem_append_left _)
      fun hb' => List.mem_append_right _ (hseen hb')

end

section
variable {α β : Type}

theorem IsLast.of_flatMap {P : β → Prop} {said : α → List β} {l : List α} {f : β}
    (h : IsLast P (l.flatMap said) f) : ∃ a ∈ l, IsLast P (said a) f := by
  induction l using List.reverseRecOn with
  | nil => exact absurd h not_isLast_nil
  | append_singleton l a ih =>
    rw [List.flatMap_append, isLast_append] at h
    rcases h with h | ⟨h, -⟩
    · exact ⟨a, by simp, by simpa using h⟩
    · obtain ⟨a', ha', h⟩ := ih h
      exact ⟨a', by simp [ha'], h⟩

theorem IsLast.of_map {P : β → Prop} {g : α → β} {l : List α} {f : β} (h : IsLast P (l.map g) f) :
    ∃ a, IsLast (fun a => P (g a)) l a ∧ g a = f := by
  obtain ⟨hP, before, after, hsplit, hafter⟩ := h
  obtain ⟨before', rest, rfl, rfl, hrest⟩ := List.map_eq_append_iff.1 hsplit
  obtain ⟨a, after', rfl, rfl, rfl⟩ := List.map_eq_cons_iff.1 hrest
  exact ⟨a, ⟨hP, before', after', rfl, fun a' ha' => hafter (g a') (List.mem_map_of_mem ha')⟩, rfl⟩

end

namespace Ledger

variable {L : Ledger} {batches : List ReadBatch} {b : ReadBatch} {touched : List (String × Int)}

/-- A fact of the batch was given last in its slot by some unit, and is bound among the keys. -/
theorem exists_last_parameter {keys : List EntityKey} {f : ParameterFact}
    (h : IsLast (fun g : ParameterFact => (g.owner, g.ordinal) = (f.owner, f.ordinal))
      (b.merged.flatMap fun p => (p.2.bound keys).parameterFacts p.1) f) :
    ∃ u p, (f.artifact, u) ∈ b.merged ∧
      IsLast (fun q => q.owner = f.owner ∧ (q.ordinal : Int) = f.ordinal) u.ownParameters p ∧
        f.key = p.key.among keys := by
  obtain ⟨⟨path, u⟩, hmem, hlast⟩ := h.of_flatMap
  rw [CompilationUnit.parameterFacts_bound] at hlast
  obtain ⟨p, ⟨hslot, before, after, hsplit, hafter⟩, rfl⟩ := hlast.of_map
  refine ⟨u, p, hmem, ⟨Prod.mk.inj hslot, before, after, hsplit, fun q hq heq => ?_⟩, rfl⟩
  exact hafter q hq (Prod.ext heq.1 heq.2)

/-- **A parameter goes by the first key at its place that was seen since right before the batch that
gave it.** -/
theorem Binds.origin (h : Binds batches L) (hnamed : ∀ b ∈ batches, ∀ u ∈ b.units, u.Named) :
    ∀ f ∈ L.parameters, ∃ before b after u p,
      Origin batches f.artifact f.owner f.ordinal before b after u p ∧
        f.key = p.key.among (candidates before b after) := by
  induction h with
  | nil => simp
  | @snoc batches L b touched hL ih =>
    have hnamed' : ∀ b ∈ batches, ∀ u ∈ b.units, u.Named := fun b' hb' => hnamed b' (by simp [hb'])
    have hknown : L.keys = knownKeys batches := hL.known
    have hbefore := hL.keys_named hnamed'
    have hafter : (L.bind b touched).keys = knownKeys (batches ++ [b]) := hL.snoc.known
    intro f hf
    rw [parameters_bind] at hf
    obtain ⟨g, hg, rfl⟩ := List.mem_map.1 hf
    rw [hafter]
    rcases (mem_putAll_iff _).1 (List.mem_of_mem_filter hg) with hlast | ⟨hold, -⟩
    · obtain ⟨u, p, hmem, hp, hkey⟩ := exists_last_parameter hlast
      refine ⟨batches, b, [], u, p, ⟨rfl, hmem, by simp, hp⟩, ?_⟩
      have hkeys : ∀ k ∈ b.ownedKeys ++ L.keys, k.name ≠ "" := fun k hk =>
        (List.mem_append.1 hk).elim (ReadBatch.ownedKeys_named (hnamed b (by simp)) k) (hbefore k)
      change g.key.among _ = _
      rw [hkey, EntityKey.among_among hkeys, hknown, candidates_nil]
    · obtain ⟨hg, hpath⟩ := List.mem_filter.1 hold
      obtain ⟨before, b', after, u, p, horigin, hkey⟩ := ih hnamed' g hg
      refine ⟨before, b', after ++ [b], u, p, horigin.snoc (of_decide_eq_true hpath), ?_⟩
      change g.key.among _ = _
      rw [hkey, EntityKey.among_among (candidates_named (horigin.split ▸ hnamed')), candidates_snoc,
        horigin.split]

end Ledger

end Crossref
