/-
Orders and batches. When the units of some artifacts are merged, each once, the
entities are there in the order in which they are registered, whatever the batches
are. A parameter that is known by its place goes by the first entity there: of those
that its own batch registers, then of earlier batches, then of later ones. Entities
at a place that belong to one artifact always come in the same order, so then every
order and every division into batches binds the parameter to the same key.
-/
import Crossref.Proofs.Disjoint
import Crossref.Proofs.Update.Places

namespace Crossref

/-! ## Units that are merged once -/

/-- The batches merge exactly these units, in some order, and nothing fails. -/
structure Splits (units : List (String × CompilationUnit)) (batches : List ReadBatch) : Prop where
  failed : ∀ b ∈ batches, b.failed = []
  merged : (batches.flatMap (·.merged)).Perm units

/-- The batches merge units of different artifacts that own different keys, and nothing fails. -/
structure Once (batches : List ReadBatch) : Prop where
  failed : ∀ b ∈ batches, b.failed = []
  paths : ((batches.flatMap (·.merged)).map (·.1)).Nodup
  owners : DisjointOwners (batches.flatMap (·.merged))

section
variable {units : List (String × CompilationUnit)} {batches done rest : List ReadBatch} {b : ReadBatch}

theorem Splits.once (h : Splits units batches) (hpaths : (units.map (·.1)).Nodup)
    (hdisjoint : DisjointOwners units) : Once batches where
  failed := h.failed
  paths := (h.merged.map Prod.fst).nodup_iff.2 hpaths
  owners := hdisjoint.perm h.merged

theorem Once.left (h : Once (done ++ rest)) : Once done where
  failed b hb := h.failed b (List.mem_append_left _ hb)
  paths := by
    have hpaths := h.paths
    rw [List.flatMap_append, List.map_append] at hpaths
    exact (List.nodup_append.1 hpaths).1
  owners := by
    have howners := h.owners
    rw [List.flatMap_append] at howners
    exact (List.pairwise_append.1 howners).1

theorem ReadBatch.paths_of_unfailed (h : b.failed = []) : b.paths = b.merged.map (·.1) := by
  rw [paths, attempted, h, merged]
  simp

theorem Once.paths_nodup (h : Once batches) : ∀ b ∈ batches, b.paths.Nodup := by
  intro b hb
  rw [ReadBatch.paths_of_unfailed (h.failed b hb)]
  have hpaths := h.paths
  rw [List.map_flatMap] at hpaths
  exact (List.nodup_flatMap.1 hpaths).1 b hb

/-- Nothing is superseded: all units count. -/
theorem Once.currentUnits (h : Once batches) : currentUnits batches = batches.flatMap (·.merged) := by
  induction batches using List.reverseRecOn with
  | nil => rfl
  | append_singleton batches b ih =>
    have hpaths := h.paths
    rw [List.flatMap_append, List.map_append] at hpaths
    have hfresh : ∀ p ∈ batches.flatMap (·.merged), p.1 ∉ b.paths := by
      intro p hp hb
      rw [ReadBatch.paths_of_unfailed (h.failed b (by simp))] at hb
      exact (List.nodup_append.1 hpaths).2.2 p.1 (List.mem_map_of_mem hp) p.1 (by simpa using hb) rfl
    rw [currentUnits_snoc, ih h.left, supersede, List.filter_eq_self.2 (by simpa using hfresh)]
    simp

/-- The ledger of the batches is what their units say. -/
theorem Once.tells (h : Once batches) (hnamed : ∀ b ∈ batches, ∀ u ∈ b.units, u.Named) {L : Ledger}
    (hL : Ledger.Merges batches L) : L.Tells (batches.flatMap (·.merged)) := by
  rw [← h.currentUnits]
  refine hL.tells hnamed h.paths_nodup fun done hdone => ?_
  obtain ⟨rest, rfl⟩ := hdone
  rw [h.left.currentUnits]
  exact h.left.owners

/-! ## Keys in the order of their registration -/

theorem Ledger.merges_foldl (batches : List ReadBatch) :
    Merges batches (batches.foldl (fun L b => L.merge b []) {}) := by
  induction batches using List.reverseRecOn with
  | nil => exact .nil
  | append_singleton batches b ih =>
    rw [List.foldl_append]
    exact ih.snoc

theorem addKeys_of_nodup {new keys : List EntityKey} (h : (keys ++ new).Nodup) :
    new.foldl addKey keys = keys ++ new := by
  induction new generalizing keys with
  | nil => rw [List.foldl_nil, List.append_nil]
  | cons k new ih =>
    have hk : k ∉ keys := fun hk => (List.nodup_append.1 h).2.2 k hk k (by simp) rfl
    have hadd : addKey keys k = keys ++ [k] := if_neg hk
    have hsplit : keys ++ k :: new = (keys ++ [k]) ++ new := by simp
    rw [List.foldl_cons, hadd, ih (hsplit ▸ h), hsplit]

/-- The keys that the units own, in the order of the units. -/
def unitKeys (units : List (String × CompilationUnit)) : List EntityKey :=
  units.flatMap fun q => q.2.owned.map (·.key)

theorem unitKeys_merged (batches : List ReadBatch) :
    unitKeys (batches.flatMap (·.merged)) = batches.flatMap (·.ownedKeys) := by
  rw [unitKeys, List.flatMap_assoc]
  refine List.flatMap_congr fun b _ => ?_
  rw [ReadBatch.ownedKeys, Ledger.owned_merged, List.map_flatMap]

/-- There are exactly the keys that the batches own, in the order of their registration. -/
theorem Once.knownKeys (h : Once batches) (hnamed : ∀ b ∈ batches, ∀ u ∈ b.units, u.Named) :
    knownKeys batches = batches.flatMap (·.ownedKeys) := by
  induction batches using List.reverseRecOn with
  | nil => rfl
  | append_singleton batches b ih =>
    let L : Ledger := batches.foldl (fun L b => L.merge b []) {}
    have hmerges : Ledger.Merges (batches ++ [b]) (L.merge b []) := (Ledger.merges_foldl batches).snoc
    have hunits : ∀ p ∈ (batches ++ [b]).flatMap (·.merged), p.2.Named := by
      intro p hp
      obtain ⟨b', hb', hp⟩ := List.mem_flatMap.1 hp
      exact hnamed b' hb' p.2 (ReadBatch.mem_units_of_merged hp)
    have hnodup := h.owners.owned_nodup hunits
    rw [List.map_flatMap] at hnodup
    change (unitKeys _).Nodup at hnodup
    rw [unitKeys_merged, List.flatMap_append, List.flatMap_singleton] at hnodup
    have hbefore : L.keys = batches.flatMap (·.ownedKeys) :=
      ih h.left fun b' hb' => hnamed b' (by simp [hb'])
    have hkeys : Crossref.knownKeys (batches ++ [b]) = (L.merge b []).keys := by
      simp [Crossref.knownKeys, L]
    rw [hkeys, Ledger.keys_merge, hbefore, addKeys_of_nodup hnodup, List.flatMap_append,
      List.flatMap_singleton, List.filter_eq_self]
    intro k hk
    refine (Ledger.mem_claimed_iff (h.tells hnamed hmerges).claims).2 ?_
    have hk : k ∈ unitKeys ((batches ++ [b]).flatMap (·.merged)) := by
      rwa [unitKeys_merged, List.flatMap_append, List.flatMap_singleton]
    obtain ⟨q, hq, hk⟩ := List.mem_flatMap.1 hk
    obtain ⟨d, hd, rfl⟩ := List.mem_map.1 hk
    exact ⟨q, hq, d, hd, rfl⟩

/-- The keys that a parameter of a batch is bound among: those that its own batch registers, those of
earlier batches and those of later ones. -/
def keysInTurn (before : List ReadBatch) (b : ReadBatch) (after : List ReadBatch) : List EntityKey :=
  (b :: (before ++ after)).flatMap (·.ownedKeys)

/-- The first candidate is the first key in turn. -/
theorem Once.find?_candidates {before after : List ReadBatch} (h : Once (before ++ b :: after))
    (hnamed : ∀ b' ∈ before ++ b :: after, ∀ u ∈ b'.units, u.Named) (p : EntityKey → Bool) :
    (candidates before b after).find? p = (keysInTurn before b after).find? p := by
  induction after using List.reverseRecOn with
  | nil =>
    have hsplit : before ++ [b] = before ++ b :: [] := rfl
    have hbefore : ∀ b' ∈ before, ∀ u ∈ b'.units, u.Named := fun b' hb' => hnamed b' (by simp [hb'])
    rw [candidates_nil, hsplit, h.knownKeys hnamed, h.left.knownKeys hbefore]
    simp only [keysInTurn, List.flatMap_append, List.flatMap_cons, List.flatMap_nil, List.append_nil,
      List.find?_append]
    cases b.ownedKeys.find? p <;> cases (before.flatMap (·.ownedKeys)).find? p <;> rfl
  | append_singleton after b' ih =>
    have hsplit : (before ++ b :: after) ++ [b'] = before ++ b :: (after ++ [b']) := by simp
    have hdone : Once ((before ++ b :: after) ++ [b']) := hsplit ▸ h
    have hbefore : ∀ b'' ∈ before ++ b :: after, ∀ u ∈ b''.units, u.Named :=
      fun b'' hb'' => hnamed b'' (hsplit ▸ List.mem_append_left _ hb'')
    rw [candidates_snoc, List.find?_append, ih hdone.left hbefore, hsplit, h.knownKeys hnamed]
    simp only [keysInTurn, List.flatMap_append, List.flatMap_cons, List.flatMap_nil, List.append_nil,
      List.find?_append]
    cases b.ownedKeys.find? p <;> cases (before.flatMap (·.ownedKeys)).find? p <;>
      cases (after.flatMap (·.ownedKeys)).find? p <;> rfl

/-! ## Entities at a place -/

/-- The unit owns an entity at the place. -/
def CompilationUnit.DeclaresAt (u : CompilationUnit) (place : Location) : Prop :=
  ∃ d ∈ u.owned, d.key.location = place

theorem exists_unitKey {place : Location} :
    (∃ k ∈ unitKeys units, k.location = place) ↔ ∃ q ∈ units, q.2.DeclaresAt place := by
  constructor
  · intro hex
    obtain ⟨k, hk, rfl⟩ := hex
    obtain ⟨q, hq, hk⟩ := List.mem_flatMap.1 hk
    obtain ⟨d, hd, rfl⟩ := List.mem_map.1 hk
    exact ⟨q, hq, d, hd, rfl⟩
  · intro hex
    obtain ⟨q, hq, d, hd, rfl⟩ := hex
    exact ⟨d.key, List.mem_flatMap.2 ⟨q, hq, List.mem_map_of_mem hd⟩, rfl⟩

/-- What is first at a place that one unit has for itself is first in this unit. -/
theorem find?_unitKeys_of_only {place : Location} {q : String × CompilationUnit} (hq : q ∈ units)
    (hat : q.2.DeclaresAt place) (honly : ∀ q' ∈ units, q'.2.DeclaresAt place → q' = q) :
    (unitKeys units).find? (·.location = place) =
      (q.2.owned.map (·.key)).find? (·.location = place) := by
  unfold unitKeys
  induction units with
  | nil => simp at hq
  | cons q' units ih =>
    rw [List.flatMap_cons, List.find?_append]
    by_cases hat' : q'.2.DeclaresAt place
    · obtain rfl := honly q' (by simp) hat'
      obtain ⟨d, hd, hplace⟩ := hat
      have hfound : ((q'.2.owned.map (·.key)).find? (·.location = place)).isSome = true :=
        List.find?_isSome.2 ⟨d.key, List.mem_map_of_mem hd, by simpa using hplace⟩
      exact Option.or_of_isSome hfound
    · have hnone : (q'.2.owned.map (·.key)).find? (·.location = place) = none := by
        refine List.find?_eq_none.2 fun k hk hplace => hat' ?_
        obtain ⟨d, hd, rfl⟩ := List.mem_map.1 hk
        exact ⟨d, hd, by simpa using hplace⟩
      have hrest : q ∈ units := (List.mem_cons.1 hq).resolve_left fun heq => hat' (heq ▸ hat)
      rw [hnone, Option.none_or]
      exact ih hrest fun q'' hq'' => honly q'' (by simp [hq''])

/-- Units in another order show the same first key at a place that no two of them share. -/
theorem find?_unitKeys_perm {units' : List (String × CompilationUnit)} (h : units.Perm units')
    {place : Location}
    (honly : ∀ q ∈ units, ∀ q' ∈ units, q.2.DeclaresAt place → q'.2.DeclaresAt place → q = q') :
    (unitKeys units).find? (·.location = place) = (unitKeys units').find? (·.location = place) := by
  by_cases hat : ∃ q ∈ units, q.2.DeclaresAt place
  · obtain ⟨q, hq, hat⟩ := hat
    rw [find?_unitKeys_of_only hq hat fun q' hq' hat' => honly q' hq' q hq hat' hat,
      find?_unitKeys_of_only (h.mem_iff.1 hq) hat fun q' hq' hat' =>
        honly q' (h.mem_iff.2 hq') q hq hat' hat]
  · have hnone (units' : List (String × CompilationUnit)) (h : units.Perm units') :
        (unitKeys units').find? (·.location = place) = none := by
      refine List.find?_eq_none.2 fun k hk hplace => hat ?_
      obtain ⟨q, hq, hat⟩ := exists_unitKey.1 ⟨k, hk, by simpa using hplace⟩
      exact ⟨q, h.mem_iff.2 hq, hat⟩
    rw [hnone units (List.Perm.refl _), hnone units' h]

end

/-! ## The row of a parameter -/

/-- The owner has a parameter row with the ordinal, and any such row is the link to the key. -/
structure Contents.GoesBy (c : Contents) (owner : EntityKey) (ordinal : Int) (k : EntityKey) : Prop where
  there : ∃ r ∈ c.parameters, c.names.key? r.ownerId = some owner ∧ r.ordinal = ordinal
  link : ∀ r ∈ c.parameters, c.names.key? r.ownerId = some owner → r.ordinal = ordinal →
    r.parameter = c.linkTo k

/-- The parameter is last in its slot among those that the unit gives. -/
def Parameter.StandsIn (p : Parameter) (u : CompilationUnit) : Prop :=
  IsLast (fun p' => p'.owner = p.owner ∧ (p'.ordinal : Int) = p.ordinal) u.ownParameters p

namespace History

variable {path : String} {steps : List UpdateStep} {units : List (String × CompilationUnit)}
  {q : String × CompilationUnit} {p : Parameter}

/-- What a unit gives has a row. -/
theorem row_there (h : Once (run path steps).batches)
    (hq : q ∈ (run path steps).batches.flatMap (·.merged)) (hp : p.StandsIn q.2) :
    ∃ r ∈ (run path steps).store.contents.parameters,
      (run path steps).store.contents.names.key? r.ownerId = some p.owner ∧ r.ordinal = p.ordinal := by
  have hs : (run path steps).Sound := run_sound path steps
  obtain ⟨L, hL, hm⟩ := hs.mirrors
  have hfact : p.fact q.1 ∈ L.parameters := by
    rw [(h.tells hs.named hL).parameters]
    refine List.mem_flatMap.2 ⟨q, hq, (mem_putAll_iff _).2 (.inl ?_)⟩
    obtain ⟨-, before, after, hsplit, hafter⟩ := hp
    refine ⟨rfl, before.map (·.fact q.1), after.map (·.fact q.1), ?_, fun f hf heq => ?_⟩
    · rw [CompilationUnit.parameterFacts, hsplit, List.map_append, List.map_cons]
    · obtain ⟨p', hp', rfl⟩ := List.mem_map.1 hf
      exact hafter p' hp' (Prod.mk.inj heq)
  obtain ⟨r, hr, hreads⟩ := exists_left_of_forall₂ hm.parameters hfact
  exact ⟨r, hr, hreads.owner, hreads.ordinal⟩

/-- What a unit gives has its origin where the unit is merged. -/
theorem origin_of_once {batches before after : List ReadBatch} {b : ReadBatch} (h : Once batches)
    (hsplit : batches = before ++ b :: after) (hq : q ∈ b.merged) (hp : p.StandsIn q.2) :
    Origin batches q.1 p.owner p.ordinal before b after q.2 p where
  split := hsplit
  merged := hq
  stands b' hb' hpath := by
    rw [ReadBatch.paths_of_unfailed (h.failed b' (by simp [hsplit, hb']))] at hpath
    obtain ⟨q', hq', heq⟩ := List.mem_map.1 hpath
    have hpaths := h.paths
    rw [hsplit, List.flatMap_append, List.flatMap_cons, List.map_append, List.map_append] at hpaths
    have hlater := (List.nodup_append.1 (List.nodup_append.1 hpaths).2.1).2.2
    exact hlater q.1 (List.mem_map_of_mem hq) q'.1
      (List.mem_map_of_mem (List.mem_flatMap.2 ⟨b', hb', hq'⟩)) heq.symm
  last := hp

/-- The rows of a parameter that a unit gives come from this unit. -/
theorem goesBy_of_once (h : Once (run path steps).batches) {before after : List ReadBatch}
    {b : ReadBatch} (hsplit : (run path steps).batches = before ++ b :: after) (hq : q ∈ b.merged)
    (hp : p.StandsIn q.2) :
    (run path steps).store.contents.GoesBy p.owner p.ordinal
      (p.key.among (candidates before b after)) := by
  have hmem {b : ReadBatch} {before after : List ReadBatch} {q : String × CompilationUnit}
      (hsplit : (run path steps).batches = before ++ b :: after) (hq : q ∈ b.merged) :
      q ∈ (run path steps).batches.flatMap (·.merged) :=
    List.mem_flatMap.2 ⟨b, by simp [hsplit], hq⟩
  have howns {u : CompilationUnit} {p : Parameter} (hp : p ∈ u.ownParameters) : u.Owns p.owner :=
    CompilationUnit.owns_of_parameter (List.mem_map_of_mem (f := (·.fact q.1)) hp)
  refine ⟨row_there h (hmem hsplit hq) hp, fun r hr howner hordinal => ?_⟩
  obtain ⟨artifact, owner, before', b', after', u, p', -, howner', horigin, hlink⟩ :=
    row_origin path steps r hr
  obtain rfl := Option.some.inj (howner.symm.trans howner')
  obtain rfl : q = (artifact, u) :=
    h.owners.unique (hmem hsplit hq) (hmem horigin.split horigin.merged) (howns hp.mem)
      (horigin.last.1.1 ▸ howns horigin.last.mem)
  rw [hordinal] at horigin
  obtain ⟨rfl, rfl, rfl, -, rfl⟩ :=
    (origin_of_once h hsplit hq hp).unique (batches_readFrom path steps) horigin
  exact hlink

/-- The parameter goes by the first key at its place, among the keys in turn; the key is there
if some unit owns an entity at the place. -/
structure FirstInTurn (h : History) (units : List (String × CompilationUnit))
    (q : String × CompilationUnit) (p : Parameter) (k : EntityKey) : Prop where
  first : ∃ before b after, h.batches = before ++ b :: after ∧ q ∈ b.merged ∧
    k = p.key.among (keysInTurn before b after)
  row : h.store.contents.GoesBy p.owner p.ordinal k
  place : k.location = p.key.location
  known : h.store.contents.Knows k ↔ ∃ q' ∈ units, q'.2.DeclaresAt p.key.location

end History

theorem keysInTurn_eq (before : List ReadBatch) (b : ReadBatch) (after : List ReadBatch) :
    keysInTurn before b after = unitKeys ((b :: (before ++ after)).flatMap (·.merged)) :=
  (unitKeys_merged _).symm

/-- The batch that comes first in turn is one of the batches. -/
theorem merged_in_turn {units : List (String × CompilationUnit)} {batches before after : List ReadBatch}
    {b : ReadBatch} (h : Splits units batches) (hsplit : batches = before ++ b :: after) :
    ((b :: (before ++ after)).flatMap (·.merged)).Perm units := by
  have hturn : (b :: (before ++ after)).Perm batches := hsplit ▸ List.perm_middle.symm
  exact (hturn.flatMap_right _).trans h.merged

namespace History

variable {path : String} {steps : List UpdateStep} {units : List (String × CompilationUnit)}
  {q : String × CompilationUnit} {p : Parameter}

/-- A parameter without a name goes by the first key in turn. -/
theorem exists_firstInTurn (hpaths : (units.map (·.1)).Nodup) (hdisjoint : DisjointOwners units)
    (h : Splits units (run path steps).batches) (hq : q ∈ units) (hp : p.StandsIn q.2)
    (hname : p.key.name = "") : ∃ k, FirstInTurn (run path steps) units q p k := by
  have honce := h.once hpaths hdisjoint
  have hs : (run path steps).Sound := run_sound path steps
  obtain ⟨b, hb, hqb⟩ := List.mem_flatMap.1 (h.merged.mem_iff.2 hq)
  obtain ⟨before, after, hsplit⟩ := List.append_of_mem hb
  have hfirst : p.key.among (candidates before b after) = p.key.among (keysInTurn before b after) :=
    EntityKey.among_congr ((hsplit ▸ honce).find?_candidates (hsplit ▸ hs.named) _)
  refine ⟨p.key.among (keysInTurn before b after), ⟨before, b, after, hsplit, hqb, rfl⟩,
    hfirst ▸ goesBy_of_once honce hsplit hqb hp, EntityKey.location_among _ _, ?_⟩
  obtain ⟨L, hL, hbinds⟩ := run_binds path steps
  have hknows (k : EntityKey) :
      (run path steps).store.contents.Knows k ↔ k ∈ keysInTurn before b after := by
    rw [hbinds.knows_iff_mem, hL.known, honce.knownKeys hs.named, hsplit, keysInTurn]
    exact (List.perm_middle.flatMap_right _).mem_iff
  have hmerged := merged_in_turn h hsplit
  rw [hknows, keysInTurn_eq]
  constructor
  · intro hk
    obtain ⟨q', hq', hat⟩ := exists_unitKey.1 ⟨_, hk, EntityKey.location_among _ _⟩
    exact ⟨q', hmerged.mem_iff.1 hq', hat⟩
  · intro hex
    obtain ⟨q', hq', hat⟩ := hex
    obtain ⟨k, hk, hplace⟩ := exists_unitKey.2 ⟨q', hmerged.mem_iff.2 hq', hat⟩
    cases hfind : (unitKeys ((b :: (before ++ after)).flatMap (·.merged))).find?
        (·.location = p.key.location) with
    | none => exact absurd hplace (by simpa using List.find?_eq_none.1 hfind k hk)
    | some k' =>
      rw [EntityKey.among_of_some hname hfind]
      exact List.mem_of_find?_eq_some hfind

/-- **Orders and batches agree on what a place means.** Units that own different keys are merged in two
ways. Then a parameter that is known by its place goes by the first key there, both times among those
that its own batch registers, those of earlier batches and those of later ones; and this is the same
key if all entities at the place belong to one artifact. -/
theorem orders_agree (path path' : String) (steps steps' : List UpdateStep)
    (hpaths : (units.map (·.1)).Nodup) (hdisjoint : DisjointOwners units)
    (h : Splits units (run path steps).batches) (h' : Splits units (run path' steps').batches) :
    ∀ q ∈ units, ∀ p, p.StandsIn q.2 → p.key.name = "" →
      ∃ k k', FirstInTurn (run path steps) units q p k ∧ FirstInTurn (run path' steps') units q p k' ∧
        ((∀ q₁ ∈ units, ∀ q₂ ∈ units, q₁.2.DeclaresAt p.key.location →
          q₂.2.DeclaresAt p.key.location → q₁.1 = q₂.1) → k = k') := by
  intro q hq p hp hname
  obtain ⟨k, hk⟩ := exists_firstInTurn hpaths hdisjoint h hq hp hname
  obtain ⟨k', hk'⟩ := exists_firstInTurn hpaths hdisjoint h' hq hp hname
  refine ⟨k, k', hk, hk', fun honly => ?_⟩
  obtain ⟨before, b, after, hsplit, -, rfl⟩ := hk.first
  obtain ⟨before', b', after', hsplit', -, rfl⟩ := hk'.first
  rw [keysInTurn_eq, keysInTurn_eq]
  have hmerged := merged_in_turn h hsplit
  have hperm := hmerged.trans (merged_in_turn h' hsplit').symm
  refine EntityKey.among_congr (find?_unitKeys_perm hperm fun q₁ hq₁ q₂ hq₂ hat₁ hat₂ => ?_)
  have hq₁ := hmerged.mem_iff.1 hq₁
  have hq₂ := hmerged.mem_iff.1 hq₂
  exact List.inj_on_of_nodup_map hpaths hq₁ hq₂ (honly q₁ hq₁ q₂ hq₂ hat₁ hat₂)

/-- Batches come from the steps, in their order. -/
theorem batches_sublist (path : String) (steps : List UpdateStep) :
    (run path steps).batches.Sublist (steps.map (·.batch)) := by
  induction steps using List.reverseRecOn with
  | nil => exact List.Sublist.slnil
  | append_singleton steps a ih =>
    rw [run_snoc, next, List.map_append]
    split
    · exact ih.append (List.Sublist.refl _)
    · exact ih.trans (List.sublist_append_left _ _)

/-- If no step and no reading fails, the steps in another order merge the same units. -/
theorem splits_of_perm {steps' : List UpdateStep} (hall : (run path steps).batches.length = steps.length)
    (hfailed : ∀ a ∈ steps, a.batch.failed = []) (h : steps.Perm steps') :
    Splits (steps'.flatMap (·.batch.merged)) (run path steps).batches := by
  have hbatches : (run path steps).batches = steps.map (·.batch) :=
    (batches_sublist path steps).eq_of_length (by rw [hall, List.length_map])
  rw [hbatches]
  refine ⟨fun b hb => ?_, ?_⟩
  · obtain ⟨a, ha, rfl⟩ := List.mem_map.1 hb
    exact hfailed a ha
  · rw [List.flatMap_map]
    exact h.flatMap_right _

end History

/-! ## Two entities at one place -/

namespace FirstCome

/-- One update for each artifact. -/
def oneByOne (texts : List (String × String)) : List UpdateStep :=
  texts.map fun text => Leftover.step 1 [text]

def declaresF : String × String :=
  ("a.ali", TakenOver.declaring "F")

def declaresG : String × String :=
  ("c.ali", TakenOver.declaring "G")

/-- Declares both at the same place. -/
def declaresBoth : String × String :=
  ("a.ali", TakenOver.declaring "F\n1V1*G")

def caller : String × String :=
  ("b.ali", TakenOver.caller)

def history (texts : List (String × String)) : History :=
  History.run "s" (oneByOne texts)

/-- The units of the artifacts with the texts. -/
def units (texts : List (String × String)) : List (String × CompilationUnit) :=
  (oneByOne texts).flatMap (·.batch.merged)

/-- The parameter rows: the owner, the ordinal and the key of the entity that is linked. -/
def links (h : History) : List (Option EntityKey × Int × Option EntityKey) :=
  let c := h.store.contents
  c.parameters.map fun r => (c.names.key? r.ownerId, r.ordinal, r.parameter.id.bind c.names.key?)

/-- Every update succeeds, every artifact can be read, and these are the parameter rows. -/
def Merged (texts : List (String × String))
    (rows : List (Option EntityKey × Int × Option EntityKey)) : Prop :=
  ((history texts).batches.length = (oneByOne texts).length ∧ links (history texts) = rows) ∧
    ∀ a ∈ oneByOne texts, a.batch.failed = []

instance (texts : List (String × String)) (rows : List (Option EntityKey × Int × Option EntityKey)) :
    Decidable (Merged texts rows) :=
  inferInstanceAs (Decidable ((_ ∧ _) ∧ _))

theorem Merged.splits {texts texts' : List (String × String)}
    {rows : List (Option EntityKey × Int × Option EntityKey)} (h : Merged texts rows)
    (hperm : texts.Perm texts') : Splits (units texts') (history texts).batches :=
  History.splits_of_perm h.1.1 h.2 (hperm.map _)

/-- The same units in two orders link the parameter to different entities. -/
theorem order_decides :
    (((units [declaresF, declaresG, caller]).map (·.1)).Nodup ∧
      DisjointOwners (units [declaresF, declaresG, caller]) ∧
      ∃ q ∈ units [declaresF, declaresG, caller], ∃ p ∈ q.2.ownParameters, p.key = TakenOver.place) ∧
    (Splits (units [declaresF, declaresG, caller]) (history [declaresF, declaresG, caller]).batches ∧
      links (history [declaresF, declaresG, caller]) =
        [(some ⟨"P", "w.adb", 5, 1⟩, 1, some ⟨"F", "v.adb", 1, 1⟩)]) ∧
    Splits (units [declaresF, declaresG, caller]) (history [declaresG, declaresF, caller]).batches ∧
      links (history [declaresG, declaresF, caller]) =
        [(some ⟨"P", "w.adb", 5, 1⟩, 1, some ⟨"G", "v.adb", 1, 1⟩)] := by
  have hfThenG : Merged [declaresF, declaresG, caller]
      [(some ⟨"P", "w.adb", 5, 1⟩, 1, some ⟨"F", "v.adb", 1, 1⟩)] := by
    decide +kernel
  have hgThenF : Merged [declaresG, declaresF, caller]
      [(some ⟨"P", "w.adb", 5, 1⟩, 1, some ⟨"G", "v.adb", 1, 1⟩)] := by
    decide +kernel
  exact ⟨by decide +kernel, ⟨hfThenG.splits (.refl _), hfThenG.1.2⟩,
    hgThenF.splits (.swap declaresF declaresG [caller]), hgThenF.1.2⟩

/-- Of two entities at the place the first one of their artifact is linked, whether the artifact was
merged before the parameter or after it. -/
theorem same_first :
    ∃ q ∈ units [declaresBoth, caller], ∃ p ∈ q.2.ownParameters, p.key = TakenOver.place ∧
      ∃ k, (history [declaresBoth, caller]).FirstInTurn (units [declaresBoth, caller]) q p k ∧
        (history [caller, declaresBoth]).FirstInTurn (units [declaresBoth, caller]) q p k := by
  have hunits : ((units [declaresBoth, caller]).map (·.1)).Nodup ∧
      DisjointOwners (units [declaresBoth, caller]) ∧
      (∀ q₁ ∈ units [declaresBoth, caller], ∀ q₂ ∈ units [declaresBoth, caller],
        (∃ d ∈ q₁.2.owned, d.key.location = TakenOver.place.location) →
          (∃ d ∈ q₂.2.owned, d.key.location = TakenOver.place.location) → q₁.1 = q₂.1) ∧
      ∃ q ∈ units [declaresBoth, caller], ∃ p ∈ q.2.ownParameters, p.key = TakenOver.place ∧
        q.2.ownParameters = [p] := by
    decide +kernel
  have hlast : Merged [declaresBoth, caller]
      [(some ⟨"P", "w.adb", 5, 1⟩, 1, some ⟨"F", "v.adb", 1, 1⟩)] := by
    decide +kernel
  have hfirst : Merged [caller, declaresBoth]
      [(some ⟨"P", "w.adb", 5, 1⟩, 1, some ⟨"F", "v.adb", 1, 1⟩)] := by
    decide +kernel
  obtain ⟨hpaths, hdisjoint, honly, q, hq, p, hp, hplace, hone⟩ := hunits
  have hstands : p.StandsIn q.2 := ⟨⟨rfl, rfl⟩, [], [], hone, by simp⟩
  obtain ⟨k, k', hk, hk', hsame⟩ := History.orders_agree "s" "s" (oneByOne [declaresBoth, caller])
    (oneByOne [caller, declaresBoth]) hpaths hdisjoint (hlast.splits (.refl _))
    (hfirst.splits (.swap declaresBoth caller [])) q hq p hstands (by rw [hplace]; rfl)
  obtain rfl := hsame (by rw [hplace]; exact honly)
  exact ⟨q, hq, p, hp, hplace, k, hk, hk'⟩

end FirstCome

end Crossref
