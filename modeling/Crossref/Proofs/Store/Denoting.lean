/-
The keys that links denote. A link to an entity denotes the key of the entity, any
other link the key that it awaits. Detaching the links to orphans and taking the
orphans out leave every link with its key. Relinking gives a link the key of an
entity that accepts the awaited one, and these are equal unless no name was awaited.
-/
import Crossref.Proofs.Store.Answers
import Crossref.Proofs.Store.Keys
import Crossref.Proofs.Store.Still

namespace Crossref

/-- The rows are equal but for their links. -/
structure ReferenceRow.Relinks (R : StoredLink → StoredLink → Prop) (r r' : ReferenceRow) : Prop where
  target : R r.target r'.target
  scope : R r.scope r'.scope
  rest : r' = { r with target := r'.target, scope := r'.scope }

structure ParameterRow.Relinks (R : StoredLink → StoredLink → Prop) (p p' : ParameterRow) : Prop where
  parameter : R p.parameter p'.parameter
  rest : p' = { p with parameter := p'.parameter }

namespace Contents

/-- The key of the entity that a link leads to, or the key that it awaits. -/
def denoted? (c : Contents) (l : StoredLink) : Option PendingKey :=
  match l.id with
  | some id => (c.entities.find? (·.id = id)).map (·.pendingKey)
  | none => some l.pending

/-- Each link denotes a key in its contents, and it is the same. -/
def SameKey (c c' : Contents) (l l' : StoredLink) : Prop :=
  ∃ k, c.denoted? l = some k ∧ c'.denoted? l' = some k

/-- The key has an empty name, and the other one is that of an entity at its place. -/
def GivesName (c : Contents) (k k' : PendingKey) : Prop :=
  k.name = some "" ∧ ∃ e ∈ c.entities, k' = e.pendingKey ∧ k' = { k with name := some e.name }

/-- Each link denotes a key in its contents. It is the same, or the first link leads to no entity that is still there,
and the name that was missing in its key is now that of an entity. -/
def SameKeyOrNamed (c c' : Contents) (l l' : StoredLink) : Prop :=
  ∃ k k', c.denoted? l = some k ∧ c'.denoted? l' = some k' ∧
    (k' = k ∨ (∀ e ∈ c'.entities, l.id ≠ some e.id) ∧ c'.GivesName k k')

/-- The contents are equal but for the links of their rows. -/
structure Relinks (R : StoredLink → StoredLink → Prop) (c c' : Contents) : Prop where
  references : List.Forall₂ (ReferenceRow.Relinks R) c.references c'.references
  parameters : List.Forall₂ (ParameterRow.Relinks R) c.parameters c'.parameters
  rest : c' = { c with references := c'.references, parameters := c'.parameters }

/-- The contents without the entities that no declaration is of, and without the parameters that these own. -/
def swept (c : Contents) : Contents :=
  { c with
    entities := c.entities.filter fun e => c.declarations.any (·.entityId = e.id)
    parameters := c.parameters.filter fun p => c.declarations.any (·.entityId = p.ownerId) }

def mapLinks (c : Contents) (g : StoredLink → StoredLink) : Contents :=
  { c with
    references := c.references.map fun r => { r with target := g r.target, scope := g r.scope }
    parameters := c.parameters.map fun p => { p with parameter := g p.parameter } }

variable {c d : Contents} {l : StoredLink} {k : PendingKey}

theorem mapLinks_mapLinks (c : Contents) (g g' : StoredLink → StoredLink) :
    (c.mapLinks g).mapLinks g' = c.mapLinks fun l => g' (g l) := by
  simp only [mapLinks, List.map_map, Function.comp_def]

theorem mapLinks_relinks {R : StoredLink → StoredLink → Prop} {g : StoredLink → StoredLink}
    (hreferences : ∀ r ∈ c.references, R r.target (g r.target) ∧ R r.scope (g r.scope))
    (hparameters : ∀ p ∈ c.parameters, R p.parameter (g p.parameter)) : c.Relinks R (c.mapLinks g) where
  references := List.forall₂_map_right_iff.2 <| List.forall₂_same.2 fun r hr =>
    ⟨(hreferences r hr).1, (hreferences r hr).2, rfl⟩
  parameters := List.forall₂_map_right_iff.2 <| List.forall₂_same.2 fun p hp => ⟨hparameters p hp, rfl⟩
  rest := rfl

/-! ## What maintenance makes of contents -/

/-- Where the keys hold, an owner that is no orphan is declared. -/
theorem Closed.orphan?_owner (h : c.Closed) {p : ParameterRow} (hp : p ∈ c.parameters) :
    (c.orphan? (some p.ownerId)).isNone = c.declarations.any (·.entityId = p.ownerId) := by
  have hrow := h.parameters p hp
  simp only [Bool.and_eq_true] at hrow
  obtain ⟨e, he, hid⟩ := hasEntity_iff.1 hrow.1.1
  rw [← hid]
  cases ho : c.orphan? (some e.id) with
  | none => exact (isDeclared_of_orphan? he ho).symm
  | some e' =>
    obtain ⟨-, heq, hnot⟩ := mem_of_orphan? ho
    rw [Option.some.inj heq]
    exact hnot.symm

theorem Closed.pruned_eq (h : c.Closed) :
    ({ c.detachTargets.detachScopes.detachParameters.dropOrphanParameters with
      entities := c.entities.filter c.isDeclared } : Contents) = c.swept.mapLinks (·.detach c) := by
  have howners : (c.detachTargets.detachScopes.detachParameters.dropOrphanParameters).parameters =
      (c.parameters.filter fun p => c.declarations.any (·.entityId = p.ownerId)).map fun p =>
        { p with parameter := p.parameter.detach c } := by
    rw [← List.filter_congr fun p hp => h.orphan?_owner hp]
    exact List.filter_map
  have hreferences : (c.detachTargets.detachScopes.detachParameters.dropOrphanParameters).references =
      c.references.map fun r => { r with target := r.target.detach c, scope := r.scope.detach c } :=
    List.map_map
  have hmap : c.swept.mapLinks (·.detach c) =
      { c with
        entities := c.entities.filter c.isDeclared
        references := c.references.map fun r => { r with target := r.target.detach c, scope := r.scope.detach c }
        parameters := (c.parameters.filter fun p => c.declarations.any (·.entityId = p.ownerId)).map fun p =>
          { p with parameter := p.parameter.detach c } } := rfl
  rw [hmap, ← howners, ← hreferences]
  rfl

theorem relinked_eq (c : Contents) :
    c.relinkTargets.relinkScopes.relinkParameters = c.mapLinks (·.relink c) := by
  have hreferences : (c.relinkTargets.relinkScopes.relinkParameters).references =
      c.references.map fun r => { r with target := r.target.relink c, scope := r.scope.relink c } :=
    List.map_map
  have hmap : c.mapLinks (·.relink c) =
      { c with
        references := c.references.map fun r => { r with target := r.target.relink c, scope := r.scope.relink c }
        parameters := c.parameters.map fun p => { p with parameter := p.parameter.relink c } } := rfl
  rw [hmap, ← hreferences]
  rfl

theorem Closed.swept_detached (h : c.Closed) : (c.swept.mapLinks (·.detach c)).Closed :=
  h.pruned_eq ▸ h.detached.pruned (orphansFree_detached c)

theorem Closed.mapLinks_relink (h : c.Closed) : (c.mapLinks (·.relink c)).Closed :=
  relinked_eq c ▸ h.relinked

theorem settled_mapLinks_relink (h : ∀ e ∈ c.entities, c.isDeclared e = true) :
    (c.mapLinks (·.relink c)).Settled :=
  relinked_eq c ▸ settled_relinked h

/-! ## Which keys are denoted -/

theorem denoted?_of_mem (h : (c.entities.map (·.id)).Nodup) {e : EntityRow} (he : e ∈ c.entities)
    (hid : l.id = some e.id) : c.denoted? l = some e.pendingKey := by
  unfold denoted?
  rw [hid]
  dsimp only
  rw [find?_slot h he, Option.map_some]

theorem denoted?_awaiting (hid : l.id = none) : c.denoted? l = some l.pending := by
  unfold denoted?
  rw [hid]

/-- With the orphans out a detached link denotes what the link denoted. -/
theorem Closed.sameKey_detach (h : c.Closed) (hd : d.entities = c.entities.filter c.isDeclared)
    (hl : c.allows l = true) : SameKey c d l (l.detach c) := by
  cases hid : l.id with
  | none =>
    have hsame : l.detach c = l := by
      unfold StoredLink.detach
      rw [hid, orphan?_none]
    rw [hsame]
    exact ⟨l.pending, denoted?_awaiting hid, denoted?_awaiting hid⟩
  | some id =>
    obtain ⟨e, he, rfl⟩ := hasEntity_iff.1 ((allows_iff.1 hl).1 id hid)
    refine ⟨e.pendingKey, denoted?_of_mem h.entityIds he hid, ?_⟩
    unfold StoredLink.detach
    rw [hid]
    cases ho : c.orphan? (some e.id) with
    | none =>
      have hmem : e ∈ d.entities := hd ▸ List.mem_filter.2 ⟨he, isDeclared_of_orphan? he ho⟩
      have hids : (d.entities.map (·.id)).Nodup := hd ▸ h.entityIds.sublist (List.filter_sublist.map _)
      exact denoted?_of_mem hids hmem hid
    | some e' =>
      obtain ⟨he', heq, -⟩ := mem_of_orphan? ho
      rw [List.inj_on_of_nodup_map h.entityIds he he' (Option.some.inj heq)]
      exact denoted?_awaiting rfl

/-- A key that accepts an entity is the entity's, or it has no name and the place of the entity. -/
theorem pendingKey_of_accepts {e : EntityRow} (h : k.accepts e = true) :
    e.pendingKey = k ∨ k.name = some "" ∧ e.pendingKey = { k with name := some e.name } := by
  obtain ⟨name, fileId, line, column⟩ := k
  simp only [PendingKey.accepts, Bool.and_eq_true, Bool.or_eq_true, decide_eq_true_eq] at h
  obtain ⟨⟨⟨rfl, rfl⟩, rfl⟩, hname⟩ := h
  rcases hname with rfl | rfl
  · exact .inr ⟨rfl, rfl⟩
  · exact .inl rfl

/-- A link that is relinked denotes the key of an entity that its own key accepts. -/
theorem denoted?_relink (h : (c.entities.map (·.id)).Nodup) (hk : c.denoted? l = some k) :
    ∃ k', c.denoted? (l.relink c) = some k' ∧ (k' = k ∨ l.id = none ∧ c.GivesName k k') := by
  unfold StoredLink.relink
  cases ha : l.awaited? c with
  | none => exact ⟨k, hk, .inl rfl⟩
  | some e =>
    unfold StoredLink.awaited? at ha
    cases hid : l.id with
    | some id =>
      rw [hid] at ha
      cases ha
    | none =>
      rw [hid] at ha
      have hfind : c.entities.find? l.pending.accepts = some e := ha
      have he := List.mem_of_find?_eq_some hfind
      obtain rfl : l.pending = k := Option.some.inj ((denoted?_awaiting hid).symm.trans hk)
      refine ⟨e.pendingKey, denoted?_of_mem h he rfl, ?_⟩
      rcases pendingKey_of_accepts (List.find?_some hfind) with heq | ⟨hname, heq⟩
      · exact .inl heq
      · exact .inr ⟨rfl, hname, e, he, rfl, heq⟩

/-- A link that is pending after the detaching leads to no entity that stays. -/
theorem ne_of_detach (h : (l.detach c).id = none) {e : EntityRow} (he : c.isDeclared e = true) :
    l.id ≠ some e.id := by
  intro hid
  have ho : c.orphan? l.id = none := by
    refine List.find?_eq_none.2 fun e' _ => ?_
    have hdeclared : l.id = some e'.id → c.isDeclared e' = true := fun hid' => by
      unfold isDeclared at he ⊢
      rwa [← Option.some.inj (hid.symm.trans hid')]
    simpa using hdeclared
  unfold StoredLink.detach at h
  rw [ho] at h
  exact Option.some_ne_none _ (hid.symm.trans h)

/-- Detached and then relinked, a link keeps its key up to a missing name. -/
theorem Closed.sameKeyOrNamed (h : c.Closed) {d d' : Contents} (hd : d.entities = c.entities.filter c.isDeclared)
    (hd' : d'.entities = d.entities) (hl : c.allows l = true) :
    SameKeyOrNamed c d' l ((l.detach c).relink d) := by
  obtain ⟨k, hk, hdetached⟩ := h.sameKey_detach hd hl
  have hids : (d.entities.map (·.id)).Nodup := hd ▸ h.entityIds.sublist (List.filter_sublist.map _)
  obtain ⟨k', hk', hkept⟩ := denoted?_relink hids hdetached
  refine ⟨k, k', hk, ?_, hkept.imp id fun ⟨hpending, hnames⟩ => ⟨fun e he => ?_, ?_⟩⟩
  · unfold denoted? at hk' ⊢
    rwa [hd']
  · rw [hd', hd] at he
    exact ne_of_detach hpending (List.mem_filter.1 he).2
  · unfold GivesName at hnames ⊢
    rwa [hd']

section
variable (h : c.Closed)
include h

theorem Closed.allows_references {r : ReferenceRow} (hr : r ∈ c.references) :
    c.allows r.target = true ∧ c.allows r.scope = true := by
  have hrow := h.references r hr
  simp only [Bool.and_eq_true] at hrow
  exact hrow.1.1

theorem Closed.allows_parameters {p : ParameterRow} (hp : p ∈ c.parameters) : c.allows p.parameter = true := by
  have hrow := h.parameters p hp
  simp only [Bool.and_eq_true] at hrow
  exact hrow.1.2

/-- A relation that holds of every link that may be there holds of the links of all rows that stay. -/
theorem Closed.swept_relinks {R : StoredLink → StoredLink → Prop} {g : StoredLink → StoredLink}
    (hg : ∀ l, c.allows l = true → R l (g l)) : c.swept.Relinks R (c.swept.mapLinks g) :=
  mapLinks_relinks (fun _ hr => ⟨hg _ (h.allows_references hr).1, hg _ (h.allows_references hr).2⟩)
    fun _ hp => hg _ (h.allows_parameters (List.mem_of_mem_filter hp))

end

end Contents

/-! ## The statements -/

open StoreM Contents

namespace StoreM

variable {s : Store} {c d : Contents}

theorem needParents_apply (h : s.contents.Complete) (tables : List Table) :
    needParents tables s = (.ok ⟨⟩, s) := by
  have hfind : tables.find? (fun t => !s.contents.has t) = none := by simp [h.has]
  unfold needParents
  rw [get_apply]
  simp only [hfind]
  rfl

/-- A statement without numbers does its change to a store that may be written. -/
theorem step_apply {change : Contents → Except RowFault Contents} (h : change c = .ok d) :
    step [] change (s.holding c) = (.ok ⟨⟩, s.holding d) := by
  have hbecome : become change (s.holding c) = (.ok ⟨⟩, { (s.holding c).start with contents := d }) := become_ok h
  unfold step
  rw [bind_apply]
  change (needWritable >>= fun _ => become change) (s.holding c) = _
  rw [bind_apply]
  exact hbecome

theorem execute_apply (h : c.Complete) (tables parents : List Table) (change : Contents → Contents) :
    execute tables parents [] (fun c => .ok (change c)) (s.holding c) = (.ok ⟨⟩, s.holding (change c)) := by
  have hstep : step [] (fun c => .ok (change c)) (s.holding c) = (.ok ⟨⟩, s.holding (change c)) := step_apply rfl
  unfold execute
  rw [bind_apply, needTables_apply h]
  dsimp only
  rw [bind_apply, needParents_apply h]
  exact hstep

end StoreM

namespace Store

variable {s : Store} {c d : Contents}

theorem changeLinks_apply (h : c.Complete) (tables : List Table) (changes : Contents → Nat)
    (change : Contents → Contents) :
    changeLinks tables changes change (s.holding c) = (.ok (changes c), s.holding (change c)) := by
  have hstep : step [] (fun c => .ok (change c)) (s.holding c) = (.ok ⟨⟩, s.holding (change c)) := step_apply rfl
  unfold changeLinks
  rw [bind_apply, needTables_apply h]
  dsimp only
  rw [bind_apply, needParents_apply h]
  dsimp only
  rw [get_apply, bind_apply, hstep]
  rfl

theorem detachUndeclared_apply (h : c.Complete) :
    detachUndeclared (s.holding c) =
      (.ok (c.references.countP (fun r => (c.orphan? r.target.id).isSome) +
          c.detachTargets.references.countP (fun r => (c.orphan? r.scope.id).isSome) +
          c.parameters.countP fun p => (c.orphan? p.parameter.id).isSome),
        s.holding c.detachTargets.detachScopes.detachParameters.dropOrphanParameters) := by
  have h₁ : c.detachTargets.Complete := ⟨h.has⟩
  have h₂ : c.detachTargets.detachScopes.Complete := ⟨h.has⟩
  have h₃ : c.detachTargets.detachScopes.detachParameters.Complete := ⟨h.has⟩
  unfold detachUndeclared
  rw [bind_apply, changeLinks_apply h]
  dsimp only
  rw [bind_apply, changeLinks_apply h₁]
  dsimp only
  rw [bind_apply, changeLinks_apply h₂]
  dsimp only
  rw [bind_apply, execute_apply h₃]
  rfl

theorem pruneOrphans_apply (h : c.Complete) (hfree : c.orphansFree = true) :
    pruneOrphans (s.holding c) =
      (.ok c.orphans.length, s.holding { c with entities := c.entities.filter c.isDeclared }) := by
  have hstep : step [] dropOrphans (s.holding c) =
      (.ok ⟨⟩, s.holding { c with entities := c.entities.filter c.isDeclared }) :=
    step_apply (if_pos hfree)
  unfold pruneOrphans
  rw [bind_apply, needTables_apply h]
  dsimp only
  rw [bind_apply, needParents_apply h]
  dsimp only
  rw [get_apply, bind_apply, hstep]
  rfl

theorem relinkPending_apply (h : c.Complete) :
    relinkPending (s.holding c) =
      (.ok (c.references.countP (fun r => (r.target.awaited? c).isSome) +
          c.relinkTargets.references.countP (fun r => (r.scope.awaited? c).isSome) +
          c.parameters.countP fun p => (p.parameter.awaited? c).isSome),
        s.holding c.relinkTargets.relinkScopes.relinkParameters) := by
  have h₁ : c.relinkTargets.Complete := ⟨h.has⟩
  have h₂ : c.relinkTargets.relinkScopes.Complete := ⟨h.has⟩
  unfold relinkPending
  rw [bind_apply, changeLinks_apply h]
  dsimp only
  rw [bind_apply, changeLinks_apply h₁]
  dsimp only
  rw [bind_apply, changeLinks_apply h₂]
  rfl

/-- The orphans are detached and taken out. -/
theorem prune_apply (h : c.Complete) (hk : c.Closed) :
    ∃ detached c₁, detachUndeclared (s.holding c) = (.ok detached, s.holding c₁) ∧
      pruneOrphans (s.holding c₁) = (.ok c.orphans.length, s.holding (c.swept.mapLinks (·.detach c))) := by
  have hcomplete : c.detachTargets.detachScopes.detachParameters.dropOrphanParameters.Complete := ⟨h.has⟩
  refine ⟨_, _, detachUndeclared_apply h, ?_⟩
  rw [← hk.pruned_eq]
  exact pruneOrphans_apply hcomplete (orphansFree_detached c)

theorem relink_apply (h : c.Complete) :
    ∃ relinked, relinkPending (s.holding c) = (.ok relinked, s.holding (c.mapLinks (·.relink c))) := by
  rw [← relinked_eq]
  exact ⟨_, relinkPending_apply h⟩

/-- Where all is settled, maintenance has nothing to do. -/
theorem maintenance_settled (h : c.Complete) (hsettled : c.Settled) :
    detachUndeclared (s.holding c) = (.ok 0, s.holding c) ∧ pruneOrphans (s.holding c) = (.ok 0, s.holding c) ∧
      relinkPending (s.holding c) = (.ok 0, s.holding c) := by
  have hfree : c.orphansFree = true := by simp [orphansFree, hsettled.orphan?]
  have hentities : c.entities.filter c.isDeclared = c.entities := List.filter_eq_self.2 hsettled.declared
  have hnone {ρ : Type} {rows : List ρ} {link : ρ → StoredLink} (hrows : ∀ r ∈ rows, (link r).awaited? c = none) :
      rows.countP (fun r => ((link r).awaited? c).isSome) = 0 :=
    List.countP_eq_zero.2 fun r hr => by simp [hrows r hr]
  refine ⟨?_, ?_, ?_⟩
  · rw [detachUndeclared_apply h, hsettled.detached]
    simp only [hsettled.orphan?, Option.isSome_none, List.countP_false]
    rfl
  · rw [pruneOrphans_apply h hfree, hsettled.orphans, hentities]
    rfl
  · rw [relinkPending_apply h, hsettled.relinkTargets, hsettled.relinkScopes, hsettled.relinkParameters,
      hnone hsettled.targets, hnone hsettled.scopes, hnone hsettled.parameters]

end Store

end Crossref
