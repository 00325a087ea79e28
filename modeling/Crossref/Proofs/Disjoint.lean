/-
Units that own different keys. If after every merge no two of the units that count
own the same key, then nothing that one unit says takes the place of what another
one said, and the ledger can be read off the units that count. It does not matter
then in which batches and in which order they came.
-/
import Crossref.Proofs.Artifact.Named
import Crossref.Proofs.Merges

namespace Crossref

/-- The record of an artifact without its time. -/
def ArtifactFact.said (a : ArtifactFact) : String × String × String :=
  (a.path, a.unitName, a.checksum)

/-- No two units own the same key. -/
def DisjointOwners (units : List (String × CompilationUnit)) : Prop :=
  units.Pairwise fun p q => ∀ d ∈ p.2.owned, ¬q.2.Owns d.key

instance (units : List (String × CompilationUnit)) : Decidable (DisjointOwners units) :=
  inferInstanceAs (Decidable (units.Pairwise _))

/-! ## Slots -/

section
variable {α κ ι : Type} [DecidableEq κ] (slot : α → κ) {said : ι → List α}

theorem putAll_of_fresh {l news : List α} (h : ∀ a ∈ l, ∀ b ∈ news, slot a ≠ slot b) :
    putAll slot l news = l ++ putAll slot [] news := by
  rw [putAll_eq, List.filter_eq_self.2]
  intro a ha
  simp only [List.mem_map, not_exists, not_and, decide_eq_true_eq]
  exact fun b hb heq => h a ha b hb heq.symm

/-- News with different slots stand as they are. -/
theorem putAll_of_nodup {news : List α} (h : (news.map slot).Nodup) : putAll slot [] news = news := by
  induction news with
  | nil => rfl
  | cons a news ih =>
    rw [List.map_cons, List.nodup_cons] at h
    rw [putAll_cons, putAll_of_fresh slot, ih h.2]
    · rfl
    · intro b hb c hc heq
      obtain rfl := List.mem_singleton.1 hb
      exact h.1 (heq ▸ List.mem_map_of_mem hc)

/-- What several say about different slots stands side by side. -/
theorem putAll_flatMap {l : List α} {items : List ι}
    (hl : ∀ a ∈ l, ∀ i ∈ items, ∀ b ∈ said i, slot a ≠ slot b)
    (h : items.Pairwise fun i j => ∀ a ∈ said i, ∀ b ∈ said j, slot a ≠ slot b) :
    putAll slot l (items.flatMap said) = l ++ items.flatMap fun i => putAll slot [] (said i) := by
  induction items generalizing l with
  | nil => simp [putAll_nil]
  | cons i rest ih =>
    rw [List.pairwise_cons] at h
    rw [List.flatMap_cons, putAll_append, putAll_of_fresh slot fun a ha =>
      hl a ha i (by simp), ih ?_ h.2, List.flatMap_cons, List.append_assoc]
    intro a ha j hj b hb
    rcases List.mem_append.1 ha with ha | ha
    · exact hl a ha j (by simp [hj]) b hb
    · exact h.1 j hj a ((mem_putAll slot ha).resolve_left (by simp)) b hb

end

/-! ## What a merge leaves and adds -/

namespace Ledger

variable {L : Ledger}

/-- What a write adds for an artifact of which nothing is left, the writes of a batch add one
after the other. -/
theorem foldl_write_fresh {φ : Type} (g : Ledger → List φ) (artifact : φ → String)
    (said : String → CompilationUnit → List φ) (hsaid : ∀ path u, ∀ f ∈ said path u, artifact f = path)
    (hwrite : ∀ L st u, (∀ f ∈ g L, artifact f ≠ st.artifact.path) →
      g (L.write st u) = g L ++ said st.artifact.path u)
    {b : ReadBatch} (hb : (b.merged.map (·.1)).Nodup) {L : Ledger}
    (hL : ∀ f ∈ g L, artifact f ∉ b.merged.map (·.1)) :
    g (b.parsed.foldl (fun L p => L.write p.1 p.2) L) =
      g L ++ b.merged.flatMap fun p => said p.1 p.2 := by
  unfold ReadBatch.merged at hb hL ⊢
  generalize b.parsed = parsed at hb hL ⊢
  induction parsed generalizing L with
  | nil => simp
  | cons p parsed ih =>
    simp only [List.map_cons, List.nodup_cons, List.mem_cons, not_or] at hb hL
    rw [List.foldl_cons, ih hb.2, hwrite L p.1 p.2 fun f hf => (hL f hf).1]
    · simp
    · intro f hf
      rw [hwrite L p.1 p.2 fun f hf => (hL f hf).1, List.mem_append] at hf
      rcases hf with hf | hf
      · exact (hL f hf).2
      · rw [hsaid _ _ f hf]
        exact hb.1

/-- Facts of a kind in which an artifact only meets its own. -/
theorem merge_fresh {φ : Type} (g : Ledger → List φ) (artifact : φ → String)
    (said : String → CompilationUnit → List φ) (hsaid : ∀ path u, ∀ f ∈ said path u, artifact f = path)
    (hpurge : ∀ L path, g (L.purge path) = (g L).filter fun f => artifact f ≠ path)
    (htouch : ∀ L path mtime, g (L.touch path mtime) = g L) (hregister : ∀ L d, g (L.register d) = g L)
    (hwrite : ∀ L st u, (∀ f ∈ g L, artifact f ≠ st.artifact.path) →
      g (L.write st u) = g L ++ said st.artifact.path u)
    (hsettle : ∀ L, g (settle L) = g L) {b : ReadBatch} (hb : b.paths.Nodup)
    (touched : List (String × Int)) :
    g (L.merge b touched) = (g L).filter (fun f => artifact f ∉ b.paths) ++
      b.merged.flatMap fun p => said p.1 p.2 := by
  have hleft := left_merge g artifact hpurge htouch hregister L b touched (b.units.flatMap (·.owned))
  refine (hsettle _).trans
    ((foldl_write_fresh g artifact said hsaid hwrite (b.merged_nodup hb) ?_).trans ?_)
  · rw [hleft]
    intro f hf hpath
    obtain ⟨p, hp, heq⟩ := List.mem_map.1 hpath
    exact of_decide_eq_true (List.mem_filter.1 hf).2 (heq ▸ b.mem_paths_of_merged hp)
  · rw [hleft]

theorem artifacts_merge {b : ReadBatch} (hb : b.paths.Nodup) (touched : List (String × Int)) :
    (L.merge b touched).artifacts.map ArtifactFact.said =
      (L.artifacts.map ArtifactFact.said).filter (fun a => a.1 ∉ b.paths) ++
        b.merged.flatMap fun p => [(p.1, p.2.unitName, p.2.checksum)] := by
  refine merge_fresh (fun L => L.artifacts.map ArtifactFact.said) (·.1)
    (fun path u => [(path, u.unitName, u.checksum)]) (by simp) (fun L path => ?_)
    (fun L path mtime => ?_) (fun _ _ => rfl) (fun L st u hfresh => ?_) (fun _ => rfl) hb touched
  · rw [List.filter_map]
    rfl
  · simp only [touch, List.map_map]
    refine List.map_congr_left fun a _ => ?_
    simp only [Function.comp_apply]
    split <;> rfl
  · have hnone : (L.artifacts.any (·.path = st.artifact.path)) = false := by
      simp only [List.any_eq_false, decide_eq_true_eq]
      exact fun a ha => hfresh _ (List.mem_map_of_mem ha)
    change List.map _ (if L.artifacts.any (·.path = st.artifact.path) then _ else _) = _
    rw [hnone, if_neg Bool.false_ne_true, List.map_append]
    rfl

theorem dependencies_merge {b : ReadBatch} (hb : b.paths.Nodup) (touched : List (String × Int)) :
    (L.merge b touched).dependencies =
      L.dependencies.filter (fun f => f.artifact ∉ b.paths) ++
        b.merged.flatMap fun p =>
          putAll (fun d => (d.artifact, d.path)) [] (p.2.dependencyFacts p.1) := by
  refine merge_fresh (·.dependencies) (·.artifact)
    (fun path u => putAll (fun d => (d.artifact, d.path)) [] (u.dependencyFacts path))
    (fun path u f hf => ?_) (fun _ _ => rfl) (fun _ _ _ => rfl) (fun _ _ => rfl)
    (fun L st u hfresh => ?_) (fun _ => rfl) hb touched
  · obtain ⟨d, -, rfl⟩ := List.mem_map.1 ((mem_putAll _ hf).resolve_left (by simp))
    rfl
  · change putAll _ (L.dependencies.filter (·.artifact ≠ st.artifact.path))
      (u.dependencyFacts st.artifact.path) = _
    rw [List.filter_eq_self.2 fun f hf => by simpa using hfresh f hf]
    refine putAll_of_fresh _ fun f hf f' hf' heq => ?_
    obtain ⟨d, -, rfl⟩ := List.mem_map.1 hf'
    exact hfresh f hf (congrArg Prod.fst heq)

/-! ## Entities -/

theorem mem_register {L : Ledger} {d : Declaration} {e : EntityFact} :
    e ∈ (L.register d).entities ↔ (e ∈ L.entities ∧ e.key ≠ d.key) ∨ (e = ⟨d.key, d.kind⟩) := by
  unfold register putEntity
  split
  next hany =>
    simp only [List.any_eq_true, decide_eq_true_eq] at hany
    obtain ⟨e₀, he₀, hkey⟩ := hany
    simp only [List.mem_map]
    constructor
    · intro h
      obtain ⟨e₁, he₁, rfl⟩ := h
      split
      next heq => exact .inr (by rw [← heq])
      next hne => exact .inl ⟨he₁, hne⟩
    · intro h
      rcases h with ⟨he, hne⟩ | rfl
      · exact ⟨e, he, if_neg hne⟩
      · exact ⟨e₀, he₀, by rw [if_pos hkey, hkey]⟩
  next hany =>
    simp only [List.any_eq_true, decide_eq_true_eq, not_exists, not_and] at hany
    rw [List.mem_append, List.mem_singleton]
    exact or_congr_left (iff_self_and.2 (hany e))

/-- Declarations with different keys are all registered, and other entities stay. -/
theorem mem_registerAll {ds : List Declaration} (hd : (ds.map (·.key)).Nodup) {L : Ledger}
    {e : EntityFact} :
    e ∈ (ds.foldl register L).entities ↔
      (e ∈ L.entities ∧ ∀ d ∈ ds, e.key ≠ d.key) ∨ ∃ d ∈ ds, e = ⟨d.key, d.kind⟩ := by
  induction ds generalizing L with
  | nil => simp
  | cons d ds ih =>
    rw [List.map_cons, List.nodup_cons] at hd
    rw [List.foldl_cons, ih hd.2, mem_register]
    simp only [List.mem_cons, forall_eq_or_imp, exists_eq_or_imp]
    constructor
    · intro hor
      rcases hor with ⟨⟨he, hne⟩ | rfl, hall⟩ | h
      · exact .inl ⟨he, hne, hall⟩
      · exact .inr (.inl rfl)
      · exact .inr (.inr h)
    · intro hor
      rcases hor with ⟨he, hne, hall⟩ | rfl | h
      · exact .inl ⟨.inl ⟨he, hne⟩, hall⟩
      · exact .inl ⟨.inr rfl, fun d' hd' heq => hd.1 (List.mem_map.2 ⟨d', hd', heq.symm⟩)⟩
      · exact .inr h

theorem entities_merge {b : ReadBatch} (hb : ((b.units.flatMap (·.owned)).map (·.key)).Nodup)
    (touched : List (String × Int)) {e : EntityFact} :
    e ∈ (L.merge b touched).entities ↔
      ((e ∈ L.entities ∧ ∀ d ∈ b.units.flatMap (·.owned), e.key ≠ d.key) ∨
        ∃ d ∈ b.units.flatMap (·.owned), e = ⟨d.key, d.kind⟩) ∧
          (L.merge b touched).isClaimed e.key = true := by
  change e ∈ List.filter _ (Ledger.entities (List.foldl _ _ b.parsed)) ↔ _
  -- only registering adds entities: the other parts of a merge do not touch them
  have hwrite (parsed : List (StaleArtifact × CompilationUnit)) (L : Ledger) :
      (parsed.foldl (fun L p => L.write p.1 p.2) L).entities = L.entities :=
    foldl_keeps (g := entities) (f := fun L (p : StaleArtifact × CompilationUnit) => L.write p.1 p.2)
      (fun _ _ => rfl) parsed L
  have htouch (touched : List (String × Int)) (L : Ledger) :
      (touched.foldl (fun L t => L.touch t.1 t.2) L).entities = L.entities :=
    foldl_keeps (g := entities) (f := fun L (t : String × Int) => L.touch t.1 t.2)
      (fun _ _ => rfl) touched L
  have hpurge (sts : List StaleArtifact) (L : Ledger) :
      (sts.foldl (fun L s => L.purge s.artifact.path) L).entities = L.entities :=
    foldl_keeps (g := entities) (f := fun L (s : StaleArtifact) => L.purge s.artifact.path)
      (fun _ _ => rfl) sts L
  rw [List.mem_filter, hwrite, mem_registerAll hb, htouch, hpurge]
  rfl

/-! ## The ledger of units with different keys -/

/-- The ledger says what the units say, and nothing else. -/
structure Tells (L : Ledger) (units : List (String × CompilationUnit)) : Prop where
  artifacts :
    L.artifacts.map ArtifactFact.said = units.flatMap fun p => [(p.1, p.2.unitName, p.2.checksum)]
  dependencies :
    L.dependencies =
      units.flatMap fun p => putAll (fun d => (d.artifact, d.path)) [] (p.2.dependencyFacts p.1)
  entities : ∀ e, e ∈ L.entities ↔ ∃ p ∈ units, ∃ d ∈ p.2.owned, e = ⟨d.key, d.kind⟩
  claims : L.claims = units.flatMap fun p => p.2.claims p.1
  references : L.references = units.flatMap fun p => p.2.referenceFacts p.1
  parameters :
    L.parameters =
      units.flatMap fun p => putAll (fun q => (q.owner, q.ordinal)) [] (p.2.parameterFacts p.1)

end Ledger

/-! ## Units that own different keys -/

section
variable {units : List (String × CompilationUnit)} {b : ReadBatch}

theorem CompilationUnit.owns_of_claim {u : CompilationUnit} {path : String} {f : Claim}
    (hf : f ∈ u.claims path) : u.Owns f.key :=
  (mem_claims_key path).1 ⟨f, hf, rfl⟩

theorem CompilationUnit.owns_of_parameter {u : CompilationUnit} {path : String} {f : ParameterFact}
    (hf : f ∈ u.parameterFacts path) : u.Owns f.owner := by
  obtain ⟨p, hp, rfl⟩ := List.mem_map.1 hf
  obtain ⟨d, hd, hkey⟩ := List.any_eq_true.1 (List.mem_filter.1 hp).2
  exact ⟨d, hd, of_decide_eq_true hkey⟩

theorem CompilationUnit.Named.owned_nodup {u : CompilationUnit} (h : u.Named) :
    (u.owned.map (·.key)).Nodup :=
  h.distinct.sublist (List.filter_sublist.map _)

theorem not_owns_symm {p q : String × CompilationUnit} (h : ∀ d ∈ p.2.owned, ¬q.2.Owns d.key) :
    ∀ d ∈ q.2.owned, ¬p.2.Owns d.key := by
  intro d hd hex
  obtain ⟨d', hd', heq⟩ := hex
  exact h d' hd' ⟨d, hd, heq.symm⟩

theorem DisjointOwners.perm {units' : List (String × CompilationUnit)} (h : DisjointOwners units)
    (hperm : units'.Perm units) : DisjointOwners units' :=
  (hperm.pairwise_iff not_owns_symm).2 h

/-- A key has one owner at most. -/
theorem DisjointOwners.unique (h : DisjointOwners units) {p q : String × CompilationUnit}
    (hp : p ∈ units) (hq : q ∈ units) {k : EntityKey} (hpk : p.2.Owns k)
    (hqk : q.2.Owns k) : p = q := by
  obtain ⟨d, hd, rfl⟩ := hpk
  refine List.Pairwise.forall_of_forall_of_flip
    (R := fun p q => ∀ d ∈ p.2.owned, q.2.Owns d.key → p = q) (fun _ _ _ _ _ => rfl) ?_ ?_ hp hq d hd hqk
  · exact h.imp fun hpq d hd hqk => absurd hqk (hpq d hd)
  · exact h.imp fun hpq d hd hqk => absurd hqk (not_owns_symm hpq d hd)

theorem DisjointOwners.owned_nodup (h : DisjointOwners units) (hnamed : ∀ p ∈ units, p.2.Named) :
    ((units.flatMap fun p => p.2.owned).map (·.key)).Nodup := by
  rw [List.map_flatMap, List.nodup_flatMap]
  refine ⟨fun p hp => (hnamed p hp).owned_nodup, h.imp fun {p q} hpq k hpk hqk => ?_⟩
  obtain ⟨d, hd, rfl⟩ := List.mem_map.1 hpk
  obtain ⟨d', hd', heq⟩ := List.mem_map.1 hqk
  exact hpq d hd ⟨d', hd', heq⟩

/-- Facts whose keys are owned meet only those of their own unit. -/
theorem DisjointOwners.slots {φ κ : Type} (h : DisjointOwners units)
    {said : String × CompilationUnit → List φ} {slot : φ → κ} {key : κ → EntityKey}
    (howns : ∀ p ∈ units, ∀ f ∈ said p, p.2.Owns (key (slot f))) :
    units.Pairwise fun p q => ∀ f ∈ said p, ∀ f' ∈ said q, slot f ≠ slot f' := by
  refine List.Pairwise.imp_of_mem (fun {p q} hp hq hpq f hf f' hf' heq => ?_) h
  obtain ⟨d, hd, hkey⟩ := howns p hp f hf
  exact hpq d hd (by rw [hkey, heq]; exact howns q hq f' hf')

theorem supersede_flatMap {φ : Type} (said : String × CompilationUnit → List φ) :
    (supersede units b).flatMap said =
      (units.filter fun p => p.1 ∉ b.paths).flatMap said ++ b.merged.flatMap said :=
  List.flatMap_append

/-- Of units that own different keys, all that a kind of facts about these keys loses is what
was superseded. -/
theorem DisjointOwners.putAll_merged {φ κ : Type} [DecidableEq κ]
    (h : DisjointOwners (supersede units b)) (said : String × CompilationUnit → List φ)
    (slot : φ → κ) (key : κ → EntityKey) (artifact : φ → String)
    (howns : ∀ p, ∀ f ∈ said p, p.2.Owns (key (slot f))) (hsaid : ∀ p, ∀ f ∈ said p, artifact f = p.1) :
    putAll slot ((units.flatMap fun p => putAll slot [] (said p)).filter fun f => artifact f ∉ b.paths)
        (b.merged.flatMap said) =
      (supersede units b).flatMap fun p => putAll slot [] (said p) := by
  have hput {p : String × CompilationUnit} {f : φ} (hf : f ∈ putAll slot [] (said p)) : f ∈ said p :=
    (mem_putAll slot hf).resolve_left (by simp)
  have hslots := List.pairwise_append.1 (h.slots fun p _ => howns p)
  rw [Ledger.filter_flatMap_said fun p f hf => hsaid p f (hput hf), supersede_flatMap,
    putAll_flatMap slot (fun f hf q hq f' hf' => ?_) hslots.2.1]
  obtain ⟨p, hp, hf⟩ := List.mem_flatMap.1 hf
  exact hslots.2.2 p hp q hq f (hput hf) f' hf'

end

namespace Ledger

variable {L : Ledger} {units : List (String × CompilationUnit)} {b : ReadBatch}

theorem claims_said (hnamed : ∀ p ∈ units, p.2.Named) :
    (units.flatMap fun p => putAll (·.key) [] (p.2.claims p.1)) =
      units.flatMap fun p => p.2.claims p.1 := by
  refine List.flatMap_congr fun p hp => putAll_of_nodup _ ?_
  rw [CompilationUnit.claims, List.map_map]
  exact (hnamed p hp).owned_nodup

theorem mem_claimed_iff {k : EntityKey} (h : L.claims = units.flatMap fun p => p.2.claims p.1) :
    L.isClaimed k = true ↔ ∃ p ∈ units, p.2.Owns k := by
  simp only [isClaimed, List.any_eq_true, decide_eq_true_eq, h, List.mem_flatMap]
  constructor
  · intro hex
    obtain ⟨f, ⟨p, hp, hf⟩, rfl⟩ := hex
    exact ⟨p, hp, CompilationUnit.owns_of_claim hf⟩
  · intro hex
    obtain ⟨p, hp, howns⟩ := hex
    obtain ⟨f, hf, hk⟩ := (CompilationUnit.mem_claims_key _).2 howns
    exact ⟨f, ⟨p, hp, hf⟩, hk⟩

theorem owned_merged (b : ReadBatch) :
    b.units.flatMap (·.owned) = b.merged.flatMap fun p => p.2.owned := by
  simp [ReadBatch.units, ReadBatch.merged, List.flatMap_map]

theorem named_supersede (hnamed : ∀ p ∈ units, p.2.Named) (hmerged : ∀ p ∈ b.merged, p.2.Named) :
    ∀ p ∈ supersede units b, p.2.Named := by
  intro p hp
  rcases List.mem_append.1 hp with hp | hp
  · exact hnamed p (List.mem_of_mem_filter hp)
  · exact hmerged p hp

section
variable (h : L.Tells units) (hnow : DisjointOwners (supersede units b)) (touched : List (String × Int))
include h hnow

theorem Tells.claims_merge (hnamed : ∀ p ∈ units, p.2.Named) (hmerged : ∀ p ∈ b.merged, p.2.Named) :
    (L.merge b touched).claims = (supersede units b).flatMap fun p => p.2.claims p.1 := by
  have hput := hnow.putAll_merged (fun p => p.2.claims p.1) (·.key) id (·.artifact)
    (fun p f hf => CompilationUnit.owns_of_claim hf) fun p f hf => by
      obtain ⟨d, -, rfl⟩ := List.mem_map.1 hf
      rfl
  rw [claims_said hnamed, claims_said (named_supersede hnamed hmerged)] at hput
  rw [Ledger.claims_merge, h.claims, hput]

/-- An entity that is left is one that a unit registers now, or one whose owner is left. -/
theorem Tells.entities_merge (hunits : DisjointOwners units) (hmerged : ∀ p ∈ b.merged, p.2.Named)
    (hclaims : (L.merge b touched).claims = (supersede units b).flatMap fun p => p.2.claims p.1)
    (e : EntityFact) :
    e ∈ (L.merge b touched).entities ↔
      ∃ p ∈ supersede units b, ∃ d ∈ p.2.owned, e = ⟨d.key, d.kind⟩ := by
  have hsplit := List.pairwise_append.1 hnow
  have hnews := DisjointOwners.owned_nodup hsplit.2.1 hmerged
  rw [← owned_merged] at hnews
  rw [Ledger.entities_merge hnews, h.entities, mem_claimed_iff hclaims, owned_merged]
  simp only [List.mem_flatMap]
  constructor
  · intro hex
    rcases hex with ⟨⟨⟨p, hp, d, hd, rfl⟩, hfree⟩ | ⟨d, ⟨p, hp, hd⟩, rfl⟩, q, hq, howns⟩
    · rcases List.mem_append.1 hq with hq | hq
      · obtain rfl := hunits.unique hp (List.mem_of_mem_filter hq) ⟨d, hd, rfl⟩ howns
        exact ⟨p, List.mem_append_left _ hq, d, hd, rfl⟩
      · obtain ⟨d', hd', heq⟩ := howns
        exact absurd heq.symm (hfree d' ⟨q, hq, hd'⟩)
    · exact ⟨p, List.mem_append_right _ hp, d, hd, rfl⟩
  · intro hex
    obtain ⟨p, hp, d, hd, rfl⟩ := hex
    refine ⟨?_, p, hp, d, hd, rfl⟩
    rcases List.mem_append.1 hp with hp | hp
    · refine .inl ⟨⟨p, List.mem_of_mem_filter hp, d, hd, rfl⟩, ?_⟩
      intro d' hex heq
      obtain ⟨q, hq, hd'⟩ := hex
      exact hsplit.2.2 p hp q hq d hd ⟨d', hd', heq.symm⟩
    · exact .inr ⟨d, ⟨p, hp, hd⟩, rfl⟩

theorem Tells.parameters_merge
    (hclaims : (L.merge b touched).claims = (supersede units b).flatMap fun p => p.2.claims p.1) :
    (L.merge b touched).parameters = (supersede units b).flatMap fun p =>
      putAll (fun q => (q.owner, q.ordinal)) [] (p.2.parameterFacts p.1) := by
  have hput := hnow.putAll_merged (fun p => p.2.parameterFacts p.1) (fun p => (p.owner, p.ordinal))
    Prod.fst (·.artifact) (fun p f hf => CompilationUnit.owns_of_parameter hf) fun p f hf => by
      obtain ⟨q, -, rfl⟩ := List.mem_map.1 hf
      rfl
  rw [Ledger.parameters_merge, h.parameters, hput, List.filter_eq_self]
  intro f hf
  obtain ⟨p, hp, hf⟩ := List.mem_flatMap.1 hf
  have hsaid : f ∈ p.2.parameterFacts p.1 := (mem_putAll _ hf).resolve_left (by simp)
  exact (mem_claimed_iff hclaims).2 ⟨p, hp, CompilationUnit.owns_of_parameter hsaid⟩

end

/-- **While units own different keys, a merge leads from what the units said to what the units
say now.** -/
theorem Tells.merge (h : L.Tells units) (hunits : DisjointOwners units)
    (hnow : DisjointOwners (supersede units b)) (hnamed : ∀ p ∈ units, p.2.Named)
    (hmerged : ∀ p ∈ b.merged, p.2.Named) (hb : b.paths.Nodup) (touched : List (String × Int)) :
    (L.merge b touched).Tells (supersede units b) := by
  have hclaims := h.claims_merge hnow touched hnamed hmerged
  exact
    { artifacts := by
        rw [artifacts_merge hb, h.artifacts, filter_flatMap_said (by simp), supersede_flatMap]
      dependencies := by
        rw [dependencies_merge hb, h.dependencies, filter_flatMap_said, supersede_flatMap]
        intro p f hf
        obtain ⟨d, -, rfl⟩ := List.mem_map.1 ((mem_putAll _ hf).resolve_left (by simp))
        rfl
      entities := h.entities_merge hnow touched hunits hmerged hclaims
      claims := hclaims
      references := by
        rw [references_merge, h.references, filter_flatMap_said, supersede_flatMap]
        intro p f hf
        obtain ⟨r, -, rfl⟩ := List.mem_map.1 hf
        rfl
      parameters := h.parameters_merge hnow touched hclaims }

/-- **While no two units that count own the same key, the ledger of merges is what the units
that count say.** -/
theorem Merges.tells {batches : List ReadBatch} (h : Merges batches L)
    (hnamed : ∀ b ∈ batches, ∀ u ∈ b.units, u.Named) (hpaths : ∀ b ∈ batches, b.paths.Nodup)
    (hdisjoint : ∀ done, done <+: batches → DisjointOwners (currentUnits done)) :
    L.Tells (currentUnits batches) := by
  induction h with
  | nil => exact ⟨rfl, rfl, by simp [currentUnits], rfl, rfl, rfl⟩
  | @snoc batches L b touched _ ih =>
    have hbefore := ih (fun b' hb' => hnamed b' (by simp [hb']))
      (fun b' hb' => hpaths b' (by simp [hb']))
      fun done hdone => hdisjoint done (hdone.trans (List.prefix_append _ _))
    have hnow := hdisjoint _ (List.prefix_refl _)
    rw [currentUnits_snoc] at hnow ⊢
    refine hbefore.merge (hdisjoint _ (List.prefix_append _ _)) hnow (fun p hp => ?_) (fun p hp => ?_)
      (hpaths b (by simp)) touched
    · obtain ⟨b', hb', hmem⟩ := exists_batch_of_mem_currentUnits hp
      exact hnamed b' (by simp [hb']) p.2 (ReadBatch.mem_units_of_merged hmem)
    · exact hnamed b (by simp) p.2 (ReadBatch.mem_units_of_merged hp)

/-- Two ledgers hold the same facts, each as often, but for the times of artifacts. -/
structure Same (L L' : Ledger) : Prop where
  artifacts : (L.artifacts.map ArtifactFact.said).Perm (L'.artifacts.map ArtifactFact.said)
  dependencies : L.dependencies.Perm L'.dependencies
  entities : L.entities.Perm L'.entities
  claims : L.claims.Perm L'.claims
  references : L.references.Perm L'.references
  parameters : L.parameters.Perm L'.parameters

/-- The order of the units does not matter. -/
theorem Tells.same {L' : Ledger} {units' : List (String × CompilationUnit)} (h : L.Tells units)
    (h' : L'.Tells units') (hkeyed : L.Keyed) (hkeyed' : L'.Keyed) (hunits : units.Perm units') :
    L.Same L' where
  artifacts := by
    rw [h.artifacts, h'.artifacts]
    exact hunits.flatMap_right _
  dependencies := by
    rw [h.dependencies, h'.dependencies]
    exact hunits.flatMap_right _
  entities := by
    refine (List.perm_ext_iff_of_nodup hkeyed.entities.of_map hkeyed'.entities.of_map).2 fun e => ?_
    rw [h.entities, h'.entities]
    simp only [hunits.mem_iff]
  claims := by
    rw [h.claims, h'.claims]
    exact hunits.flatMap_right _
  references := by
    rw [h.references, h'.references]
    exact hunits.flatMap_right _
  parameters := by
    rw [h.parameters, h'.parameters]
    exact hunits.flatMap_right _

end Ledger

end Crossref
