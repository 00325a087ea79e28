/-
The upkeep after a merge, as seen in the ledger. Detaching and relinking a link
never changes the key it shows; taking the orphans out is never refused after they
were detached, and leaves the entities that are claimed. Afterwards the contents
are settled: every entity is declared, and no link waits for an entity that is
there.
-/
import Crossref.Proofs.Store.Statements
import Crossref.Store.Maintenance

namespace Crossref

open StoreM StoreM.Ends

namespace Contents

variable {c : Contents} {L : Ledger}

theorem Mirrors.key?_of_reads (h : c.Mirrors L) {e : EntityRow} {f : EntityFact} (he : e ∈ c.entities)
    (hf : c.names.EntityReads e f) : c.names.key? e.id = some f.key := by
  rw [h.sound.key?_of_mem he]
  exact keyOf?_eq_some.2 ⟨hf.file, hf.name, hf.line, hf.column⟩

theorem Mirrors.isDeclared (h : c.Mirrors L) {e : EntityRow} {k : EntityKey}
    (hk : c.names.key? e.id = some k) : c.isDeclared e = L.isClaimed k :=
  forall₂_any h.claims fun d f hd => by simp [h.sound.entity_eq_iff hd.key hk]

/-! ## Changing links

A change of links is not seen in the ledger if the links go on showing the keys that they showed. -/

section
variable {g : StoredLink → StoredLink}

theorem Mirrors.mapTargets (h : c.Mirrors L)
    (hg : ∀ {l k}, c.names.Shows l k → c.names.Shows (g l) k) :
    ({ c with references := c.references.map fun r => { r with target := g r.target } } :
      Contents).Mirrors L :=
  { h with
    sound := { h.sound with }
    references := List.forall₂_map_left_iff.2 <|
      h.references.imp fun _ _ hr => { hr with target := hg hr.target } }

theorem Mirrors.mapScopes (h : c.Mirrors L)
    (hg : ∀ {l k}, c.names.ShowsScope l k → c.names.ShowsScope (g l) k) :
    ({ c with references := c.references.map fun r => { r with scope := g r.scope } } :
      Contents).Mirrors L :=
  { h with
    sound := { h.sound with }
    references := List.forall₂_map_left_iff.2 <|
      h.references.imp fun _ _ hr => { hr with scope := hg hr.scope } }

theorem Mirrors.mapParameters (h : c.Mirrors L)
    (hg : ∀ {l k}, c.names.Shows l k → c.names.Shows (g l) k) :
    ({ c with parameters := c.parameters.map fun p => { p with parameter := g p.parameter } } :
      Contents).Mirrors L :=
  { h with
    sound := { h.sound with }
    parameters := List.forall₂_map_left_iff.2 <|
      h.parameters.imp fun _ _ hr => { hr with parameter := hg hr.parameter } }

end

/-! ## Orphans -/

theorem mem_of_orphan? {id : Option Int} {e : EntityRow} (h : c.orphan? id = some e) :
    e ∈ c.entities ∧ id = some e.id ∧ c.isDeclared e = false := by
  have hp := List.find?_some h
  simp only [Bool.and_eq_true, decide_eq_true_eq, Bool.not_eq_true'] at hp
  exact ⟨List.mem_of_find?_eq_some h, hp.1, hp.2⟩

theorem orphan?_none (c : Contents) : c.orphan? none = none := by
  simp [orphan?]

/-- An id that is no orphan's belongs to a declared entity. -/
theorem isDeclared_of_orphan? {e : EntityRow} (he : e ∈ c.entities) (h : c.orphan? (some e.id) = none) :
    c.isDeclared e = true := by
  simpa using List.find?_eq_none.1 h e he

theorem Mirrors.orphan?_isNone (h : c.Mirrors L) {id : Int} {k : EntityKey}
    (hk : c.names.key? id = some k) : (c.orphan? (some id)).isNone = L.isClaimed k := by
  obtain ⟨e, he, rfl, -⟩ := mem_of_key? hk
  rw [← h.isDeclared hk]
  cases ho : c.orphan? (some e.id) with
  | none => rw [isDeclared_of_orphan? he ho, Option.isNone_none]
  | some e' =>
    obtain ⟨he', heq, hnot⟩ := mem_of_orphan? ho
    rw [List.inj_on_of_nodup_map h.sound.entityIds he he' (Option.some.inj heq), hnot,
      Option.isNone_some]

/-! ## Detaching -/

theorem Sound.shows_detach (h : c.Sound) {l : StoredLink} {k : EntityKey} (hl : c.names.Shows l k) :
    c.names.Shows (l.detach c) k := by
  obtain ⟨k', hl, hk⟩ := hl
  refine ⟨k', ?_, hk⟩
  cases hl with
  | @linked id _ hid =>
    unfold StoredLink.detach
    cases ho : c.orphan? (some id) with
    | none => exact .linked hid
    | some e =>
      obtain ⟨he, heq, -⟩ := mem_of_orphan? ho
      obtain rfl := Option.some.inj heq
      rw [h.key?_of_mem he] at hid
      obtain ⟨hfile, hname, hline, hcolumn⟩ := keyOf?_eq_some.1 hid
      have hpending : e.pendingKey = k'.pendingAt e.fileId := by
        simp only [EntityRow.pendingKey, EntityKey.pendingAt, hname, hline, hcolumn]
      simp only [hpending]
      exact .awaiting hfile
  | awaiting hfile =>
    simp only [StoredLink.detach, orphan?_none]
    exact .awaiting hfile

theorem Sound.showsScope_detach (h : c.Sound) {l : StoredLink} :
    ∀ {k : Option EntityKey}, c.names.ShowsScope l k → c.names.ShowsScope (l.detach c) k
  | none, hl => by
    have hempty : l = {} := hl
    subst hempty
    simp only [StoredLink.detach, orphan?_none]
    rfl
  | some _, hl => h.shows_detach hl

theorem orphan?_detach (c : Contents) (l : StoredLink) : c.orphan? (l.detach c).id = none := by
  unfold StoredLink.detach
  cases ho : c.orphan? l.id with
  | none => exact ho
  | some e => exact orphan?_none c

theorem Mirrors.detached (h : c.Mirrors L) :
    c.detachTargets.detachScopes.detachParameters.Mirrors L := by
  have h₁ : c.detachTargets.Mirrors L := h.mapTargets h.sound.shows_detach
  have h₂ : c.detachTargets.detachScopes.Mirrors L := h₁.mapScopes h₁.sound.showsScope_detach
  exact h₂.mapParameters h₂.sound.shows_detach

theorem Mirrors.dropOrphanParameters (h : c.Mirrors L) :
    c.dropOrphanParameters.Mirrors
      { L with parameters := L.parameters.filter fun p => L.isClaimed p.owner } :=
  { h with
    sound := { h.sound with }
    parameters := forall₂_filter h.parameters fun _ _ hp => h.orphan?_isNone hp.owner }

/-- After the detaching no link and no parameter leads to an orphan. -/
theorem orphansFree_detached (c : Contents) :
    (c.detachTargets.detachScopes.detachParameters.dropOrphanParameters).orphansFree = true := by
  simp only [orphansFree, Bool.and_eq_true, List.all_eq_true, Option.isNone_iff_eq_none]
  constructor
  · simp only [dropOrphanParameters, detachParameters, detachScopes, detachTargets, List.mem_map]
    intro _ hmem
    obtain ⟨_, ⟨r, -, rfl⟩, rfl⟩ := hmem
    exact ⟨orphan?_detach c r.target, orphan?_detach c r.scope⟩
  · simp only [dropOrphanParameters, List.mem_filter, detachParameters, List.mem_map,
      Option.isNone_iff_eq_none]
    intro _ hmem
    obtain ⟨⟨p, -, rfl⟩, howner⟩ := hmem
    exact ⟨howner, orphan?_detach c p.parameter⟩

/-! ## Taking orphans out -/

theorem key?_dropOrphans (h : c.Sound) {id : Int} {k : EntityKey} (hk : c.names.key? id = some k)
    (ho : c.orphan? (some id) = none) :
    ({ c with entities := c.entities.filter c.isDeclared } : Contents).names.key? id = some k := by
  obtain ⟨e, he, rfl, hkey⟩ := mem_of_key? hk
  have hmem : e ∈ c.entities.filter c.isDeclared := List.mem_filter.2 ⟨he, isDeclared_of_orphan? he ho⟩
  have hids : ((c.entities.filter c.isDeclared).map (·.id)).Nodup :=
    h.entityIds.sublist (List.filter_sublist.map _)
  change ((c.entities.filter c.isDeclared).find? _).bind c.keyOf? = some k
  rw [find?_slot hids hmem, Option.bind_some, hkey]

/-- Links that lead to no orphan show what they showed once the orphans are out. -/
theorem shows_dropOrphans (h : c.Sound) {l : StoredLink} {k : EntityKey} (hl : c.names.Shows l k)
    (ho : c.orphan? l.id = none) :
    ({ c with entities := c.entities.filter c.isDeclared } : Contents).names.Shows l k := by
  obtain ⟨k', hl, hk⟩ := hl
  refine ⟨k', ?_, hk⟩
  cases hl with
  | linked hid => exact .linked (key?_dropOrphans h hid ho)
  | awaiting hfile => exact .awaiting hfile

theorem showsScope_dropOrphans (h : c.Sound) {l : StoredLink} (ho : c.orphan? l.id = none) :
    ∀ {k : Option EntityKey}, c.names.ShowsScope l k →
      ({ c with entities := c.entities.filter c.isDeclared } : Contents).names.ShowsScope l k
  | none, hl => hl
  | some _, hl => shows_dropOrphans h hl ho

/-- A relation between rows and facts may use that the rows and the facts are there. -/
theorem forall₂_imp_mem {ρ φ : Type} {R S : ρ → φ → Prop} {l : List ρ} {l' : List φ}
    (h : List.Forall₂ R l l') (himp : ∀ a b, a ∈ l → b ∈ l' → R a b → S a b) : List.Forall₂ S l l' := by
  induction h with
  | nil => exact .nil
  | cons hab _ ih =>
    refine .cons (himp _ _ (by simp) (by simp) hab) (ih fun a b ha hb => ?_)
    exact himp a b (List.mem_cons_of_mem _ ha) (List.mem_cons_of_mem _ hb)

theorem Mirrors.dropOrphans (h : c.Mirrors L) (hfree : c.orphansFree = true) :
    ∃ c', c.dropOrphans = .ok c' ∧
      c'.Mirrors { L with entities := L.entities.filter fun e => L.isClaimed e.key } ∧
      ∀ e ∈ c'.entities, c'.isDeclared e = true := by
  simp only [orphansFree, Bool.and_eq_true, List.all_eq_true, Option.isNone_iff_eq_none] at hfree
  obtain ⟨hreferences, hparameters⟩ := hfree
  refine ⟨{ c with entities := c.entities.filter c.isDeclared }, if_pos ?_, ?_,
    fun e he => (List.mem_filter.1 he).2⟩
  · simp only [orphansFree, Bool.and_eq_true, List.all_eq_true, Option.isNone_iff_eq_none]
    exact ⟨hreferences, hparameters⟩
  · exact
      { sound :=
          { h.sound with
            entityKeys := h.sound.entityKeys.sublist (List.filter_sublist.map _)
            entityIds := h.sound.entityIds.sublist (List.filter_sublist.map _)
            entityRange := fun e he => h.sound.entityRange e (List.mem_of_mem_filter he) }
        artifacts := h.artifacts.imp fun _ _ hr => { hr with }
        dependencies := h.dependencies.imp fun _ _ hr => { hr with }
        entities := by
          refine List.Forall₂.imp (R := c.names.EntityReads) (fun _ _ hr => { hr with }) ?_
          refine List.Forall₂.imp (R := fun e f => e ∈ c.entities ∧ c.names.EntityReads e f)
            (fun _ _ hr => hr.2) ?_
          refine forall₂_filter (forall₂_imp_mem h.entities fun _ _ he _ hr => ⟨he, hr⟩)
            fun e f hr => ?_
          exact h.isDeclared (h.key?_of_reads hr.1 hr.2)
        claims := forall₂_imp_mem h.claims fun d f _ hf hr =>
          { hr with
            key := by
              refine key?_dropOrphans h.sound hr.key ?_
              have hclaimed : L.isClaimed f.key = true := List.any_eq_true.2 ⟨f, hf, by simp⟩
              rw [← Option.isNone_iff_eq_none, h.orphan?_isNone hr.key, hclaimed] }
        references := forall₂_imp_mem h.references fun r f hmem _ hr =>
          { hr with
            target := shows_dropOrphans h.sound hr.target (hreferences r hmem).1
            scope := showsScope_dropOrphans h.sound (hreferences r hmem).2 hr.scope }
        parameters := forall₂_imp_mem h.parameters fun p f hmem _ hr =>
          { hr with
            owner := key?_dropOrphans h.sound hr.owner (hparameters p hmem).1
            parameter := shows_dropOrphans h.sound hr.parameter (hparameters p hmem).2 } }

/-! ## Relinking -/

theorem Sound.shows_relink (h : c.Sound) {l : StoredLink} {k : EntityKey} (hl : c.names.Shows l k) :
    c.names.Shows (l.relink c) k := by
  obtain ⟨k', hl, hk⟩ := hl
  unfold StoredLink.relink
  cases ha : l.awaited? c with
  | none => exact ⟨k', hl, hk⟩
  | some e =>
    cases hl with
    | linked hid => simp [StoredLink.awaited?] at ha
    | @awaiting file _ hfile =>
      have hf : c.entities.find? (k'.pendingAt file).accepts = some e := ha
      have hp := List.find?_some hf
      simp only [PendingKey.accepts, EntityKey.pendingAt, Bool.and_eq_true, Bool.or_eq_true,
        decide_eq_true_eq, Option.some.injEq] at hp
      obtain ⟨⟨⟨rfl, hline⟩, hcolumn⟩, hname⟩ := hp
      have hkey : c.names.key? e.id = some ⟨e.name, k'.file, e.line, e.column⟩ := by
        rw [h.key?_of_mem (List.mem_of_find?_eq_some hf)]
        exact keyOf?_eq_some.2 ⟨hfile, rfl, rfl, rfl⟩
      refine ⟨_, .linked hkey, hk.trans ⟨?_, hname.imp id Eq.symm⟩⟩
      simp only [EntityKey.location, hline, hcolumn]

theorem Sound.showsScope_relink (h : c.Sound) {l : StoredLink} :
    ∀ {k : Option EntityKey}, c.names.ShowsScope l k → c.names.ShowsScope (l.relink c) k
  | none, hl => by
    have hempty : l = {} := hl
    have hnone : c.entities.find? ({} : PendingKey).accepts = none := by simp [PendingKey.accepts]
    simp [hempty, StoredLink.relink, StoredLink.awaited?, hnone, Names.ShowsScope]
  | some _, hl => h.shows_relink hl

theorem awaited?_relink (c : Contents) (l : StoredLink) : (l.relink c).awaited? c = none := by
  unfold StoredLink.relink
  cases ha : l.awaited? c with
  | none => exact ha
  | some e => rfl

theorem Mirrors.relinked (h : c.Mirrors L) :
    c.relinkTargets.relinkScopes.relinkParameters.Mirrors L := by
  have h₁ : c.relinkTargets.Mirrors L := h.mapTargets h.sound.shows_relink
  have h₂ : c.relinkTargets.relinkScopes.Mirrors L := h₁.mapScopes h₁.sound.showsScope_relink
  exact h₂.mapParameters h₂.sound.shows_relink

/-- Every entity is declared, and no link waits for an entity that is there. -/
structure Settled (c : Contents) : Prop where
  declared : ∀ e ∈ c.entities, c.isDeclared e = true
  targets : ∀ r ∈ c.references, r.target.awaited? c = none
  scopes : ∀ r ∈ c.references, r.scope.awaited? c = none
  parameters : ∀ p ∈ c.parameters, p.parameter.awaited? c = none

theorem settled_relinked (h : ∀ e ∈ c.entities, c.isDeclared e = true) :
    (c.relinkTargets.relinkScopes.relinkParameters).Settled where
  declared := h
  targets := by
    simp only [relinkParameters, relinkScopes, relinkTargets, List.mem_map]
    intro _ hmem
    obtain ⟨_, ⟨r, -, rfl⟩, rfl⟩ := hmem
    exact awaited?_relink c r.target
  scopes := by
    simp only [relinkParameters, relinkScopes, relinkTargets, List.mem_map]
    intro _ hmem
    obtain ⟨_, ⟨r, -, rfl⟩, rfl⟩ := hmem
    exact awaited?_relink c r.scope
  parameters := by
    simp only [relinkParameters, List.mem_map]
    intro _ hmem
    obtain ⟨p, -, rfl⟩ := hmem
    exact awaited?_relink c p.parameter

end Contents

/-! ## The statements -/

namespace Store

variable {s : Store} {c : Contents} {L : Ledger} {fit : Prop}

theorem changeLinks_ends {tables : List Table} {changes : Contents → Nat} {change : Contents → Contents}
    (hc : c.Complete) :
    Ends s (changeLinks tables changes change) c (fun n c' => n = changes c ∧ c' = change c)
      (Refused fit) := by
  refine (needTables hc).keep_bind fun _ => (needParents hc).keep_bind fun _ => ?_
  refine Ends.get (Ends.bind (StoreM.Ends.step (refuses_of_fits (by simp)) (.inl ⟨_, rfl, rfl⟩)) ?_)
  intro _ _ hpost
  obtain ⟨rfl, -⟩ := hpost
  exact Ends.pure ⟨rfl, rfl⟩

theorem changeLinks_bind {β : Type} {tables : List Table} {changes : Contents → Nat}
    {change : Contents → Contents} {f : Nat → StoreM β} {ok : β → Contents → Prop} (hc : c.Complete)
    (hf : Ends s (f (changes c)) (change c) ok (Refused fit)) :
    Ends s (changeLinks tables changes change >>= f) c ok (Refused fit) := by
  refine (changeLinks_ends hc).bind ?_
  intro _ _ hpost
  obtain ⟨rfl, rfl⟩ := hpost
  exact hf

theorem detachUndeclared_leaves (h : c.Complete) :
    Ends s detachUndeclared c
      (fun _ c' => c' = c.detachTargets.detachScopes.detachParameters.dropOrphanParameters)
      (Refused fit) := by
  refine changeLinks_bind h ?_
  refine changeLinks_bind ⟨h.has⟩ ?_
  refine changeLinks_bind ⟨h.has⟩ ?_
  refine execute_bind ⟨h.has⟩ (refuses_of_fits (by simp)) ?_
  exact Ends.pure rfl

theorem detachUndeclared_ends (h : c.Mirrors L) :
    Ends s detachUndeclared c
      (fun _ c' =>
        c'.Mirrors { L with parameters := L.parameters.filter fun p => L.isClaimed p.owner } ∧
          c'.orphansFree = true)
      (Refused fit) :=
  (detachUndeclared_leaves h.sound.toComplete).weaken fun _ _ hc =>
    hc ▸ ⟨h.detached.dropOrphanParameters, Contents.orphansFree_detached c⟩

theorem pruneOrphans_ends (h : c.Mirrors L) (hfree : c.orphansFree = true) :
    Ends s pruneOrphans c
      (fun _ c' => c'.Mirrors { L with entities := L.entities.filter fun e => L.isClaimed e.key } ∧
        ∀ e ∈ c'.entities, c'.isDeclared e = true)
      (Refused fit) := by
  obtain ⟨c', hc, hm, hdeclared⟩ := h.dropOrphans hfree
  refine (needTables h.sound.toComplete).keep_bind fun _ => ?_
  refine (needParents h.sound.toComplete).keep_bind fun _ => ?_
  refine Ends.get (Ends.bind (StoreM.Ends.step (refuses_of_fits (by simp)) (.inl ⟨c', hc, rfl⟩)) ?_)
  intro _ _ hpost
  obtain ⟨rfl, -⟩ := hpost
  exact Ends.pure ⟨hm, hdeclared⟩

theorem relinkPending_leaves (h : c.Complete) :
    Ends s relinkPending c (fun _ c' => c' = c.relinkTargets.relinkScopes.relinkParameters)
      (Refused fit) := by
  refine changeLinks_bind h ?_
  refine changeLinks_bind ⟨h.has⟩ ?_
  refine changeLinks_bind ⟨h.has⟩ ?_
  exact Ends.pure rfl

theorem relinkPending_ends (h : c.Mirrors L) (hdeclared : ∀ e ∈ c.entities, c.isDeclared e = true) :
    Ends s relinkPending c (fun _ c' => c'.Mirrors L ∧ c'.Settled) (Refused fit) :=
  (relinkPending_leaves h.sound.toComplete).weaken fun _ _ hc =>
    hc ▸ ⟨h.relinked, Contents.settled_relinked hdeclared⟩

end Store

end Crossref
