/-
The links of settled contents. A key with a name is linked to its entity if the
entity is there, and is awaited as it is if not; so the rows of references are the
facts about references, with ids for names.
-/
import Crossref.Proofs.Artifact.Named
import Crossref.Proofs.Store.Upkeep

namespace Crossref

/-- The target and the scope have names. -/
structure ReferenceFact.Named (f : ReferenceFact) : Prop where
  target : f.target.name ≠ ""
  scope : ∀ k ∈ f.scope, k.name ≠ ""

theorem named_referenceFacts {units : List (String × CompilationUnit)} (h : ∀ p ∈ units, p.2.Named)
    {facts : List ReferenceFact} (hfacts : facts = units.flatMap fun p => p.2.referenceFacts p.1) :
    ∀ f ∈ facts, f.Named := by
  rw [hfacts]
  intro f hf
  obtain ⟨p, hp, hf⟩ := List.mem_flatMap.1 hf
  obtain ⟨r, hr, rfl⟩ := List.mem_map.1 hf
  exact ⟨(h p hp).targets r hr, (h p hp).scopes r hr⟩

namespace Contents

/-- An entity with the key is there. -/
def Knows (c : Contents) (k : EntityKey) : Prop :=
  ∃ e ∈ c.entities, c.keyOf? e = some k

instance (c : Contents) (k : EntityKey) : Decidable (c.Knows k) :=
  inferInstanceAs (Decidable (∃ e ∈ c.entities, c.keyOf? e = some k))

/-- The id of the entity with exactly this key. -/
def entityId? (c : Contents) (k : EntityKey) : Option Int :=
  (c.entities.find? fun e => c.keyOf? e = some k).map (·.id)

/-- How a settled link to the key is stored. -/
def linkTo (c : Contents) (k : EntityKey) : StoredLink :=
  match c.entityId? k with
  | some id => ⟨some id, {}⟩
  | none => ⟨none, ⟨some k.name, c.fileId? k.file, some k.line, some k.column⟩⟩

variable {c : Contents} {L : Ledger}

theorem Sound.entityId?_eq_some (h : c.Sound) {k : EntityKey} {id : Int} :
    c.entityId? k = some id ↔ c.names.key? id = some k := by
  constructor
  · intro hid
    simp only [entityId?, Option.map_eq_some_iff] at hid
    obtain ⟨e, he, rfl⟩ := hid
    rw [h.key?_of_mem (List.mem_of_find?_eq_some he)]
    simpa using List.find?_some he
  · intro hk
    obtain ⟨e, he, -, hkey⟩ := mem_of_key? hk
    have hfound : (c.entities.find? fun e => c.keyOf? e = some k).isSome = true :=
      List.find?_isSome.2 ⟨e, he, by simpa using hkey⟩
    obtain ⟨e', he'⟩ := Option.isSome_iff_exists.1 hfound
    have hk' : c.names.key? e'.id = some k := by
      rw [h.key?_of_mem (List.mem_of_find?_eq_some he')]
      simpa using List.find?_some he'
    rw [entityId?, he', Option.map_some, h.key_inj hk' hk]

theorem Sound.knows_iff (h : c.Sound) {k : EntityKey} : c.Knows k ↔ ∃ id, c.names.key? id = some k := by
  constructor
  · intro hex
    obtain ⟨e, he, hk⟩ := hex
    exact ⟨e.id, by rw [h.key?_of_mem he, hk]⟩
  · intro hex
    obtain ⟨id, hk⟩ := hex
    obtain ⟨e, he, -, hkey⟩ := mem_of_key? hk
    exact ⟨e, he, hkey⟩

theorem Sound.entityId?_eq_none (h : c.Sound) {k : EntityKey} : c.entityId? k = none ↔ ¬c.Knows k := by
  rw [h.knows_iff, Option.eq_none_iff_forall_ne_some]
  simp [h.entityId?_eq_some]

theorem Mirrors.knows_iff (h : c.Mirrors L) {k : EntityKey} :
    c.Knows k ↔ L.entities.any (·.key = k) = true := by
  simp only [List.any_eq_true, decide_eq_true_eq]
  constructor
  · intro hex
    obtain ⟨e, he, hk⟩ := hex
    obtain ⟨f, hf, hr⟩ := exists_right_of_forall₂ h.entities he
    have hkey : c.keyOf? e = some f.key := keyOf?_eq_some.2 ⟨hr.file, hr.name, hr.line, hr.column⟩
    exact ⟨f, hf, Option.some.inj (hkey.symm.trans hk)⟩
  · intro hex
    obtain ⟨f, hf, rfl⟩ := hex
    obtain ⟨e, he, hr⟩ := exists_left_of_forall₂ h.entities hf
    exact ⟨e, he, keyOf?_eq_some.2 ⟨hr.file, hr.name, hr.line, hr.column⟩⟩

/-- What is awaited by a settled link is not there. -/
theorem Sound.not_knows_of_awaited? (h : c.Sound) {k : EntityKey} {file : Int}
    (hfile : c.filePath? file = some k.file)
    (ha : (⟨none, k.pendingAt file⟩ : StoredLink).awaited? c = none) : ¬c.Knows k := by
  intro hex
  obtain ⟨e, he, hkey⟩ := hex
  obtain ⟨hpath, hname, hline, hcolumn⟩ := keyOf?_eq_some.1 hkey
  simp only [StoredLink.awaited?, Option.isSome_none, Bool.false_eq_true, if_false] at ha
  have haccepts := List.find?_eq_none.1 ha e he
  simp [PendingKey.accepts, EntityKey.pendingAt, h.path_inj hfile hpath, hname, hline,
    hcolumn] at haccepts

/-- A settled link that reads as a key is the one link to the key. -/
theorem Sound.eq_linkTo_of_reads (h : c.Sound) {l : StoredLink} {k : EntityKey} (hl : c.names.Reads l k)
    (ha : l.awaited? c = none) : l = c.linkTo k := by
  unfold linkTo
  cases hl with
  | linked hid => rw [h.entityId?_eq_some.2 hid]
  | awaiting hfile =>
    rw [h.entityId?_eq_none.2 (h.not_knows_of_awaited? hfile ha), h.fileId?_eq_some.2 hfile]
    rfl

theorem Sound.eq_linkTo (h : c.Sound) {l : StoredLink} {k : EntityKey} (hl : c.names.Shows l k)
    (hk : k.name ≠ "") (ha : l.awaited? c = none) : l = c.linkTo k := by
  obtain ⟨k', hl, hcovers⟩ := hl
  obtain rfl := hcovers.eq_of_named hk
  exact h.eq_linkTo_of_reads hl ha

/-! ## References -/

/-- The row of a fact. -/
def referenceRow? (c : Contents) (f : ReferenceFact) : Option ReferenceRecord := do
  let artifact ← c.fileId? f.artifact
  let file ← c.fileId? f.location.file
  pure ⟨c.linkTo f.target, artifact, file, f.location.line, f.location.column, f.kind,
    f.scope.elim {} c.linkTo⟩

theorem Sound.eq_scopeLink (h : c.Sound) {l : StoredLink} {k : Option EntityKey}
    (hl : c.names.ShowsScope l k) (hk : ∀ k' ∈ k, k'.name ≠ "") (ha : l.awaited? c = none) :
    l = k.elim {} c.linkTo := by
  cases k with
  | none => exact hl
  | some k => exact h.eq_linkTo hl (hk k rfl) ha

theorem Sound.referenceRow? (h : c.Sound) {r : ReferenceRecord} {f : ReferenceFact}
    (hr : c.names.ReferenceReads r f) (hf : f.Named) (ht : r.target.awaited? c = none)
    (hs : r.scope.awaited? c = none) : c.referenceRow? f = some r := by
  have htarget := h.eq_linkTo hr.target hf.target ht
  have hscope := h.eq_scopeLink hr.scope hf.scope hs
  obtain ⟨target, artifactId, fileId, line, column, kind, scope⟩ := r
  obtain ⟨-, hartifact, hfile, rfl, rfl, rfl, -⟩ := hr
  subst htarget
  subst hscope
  simp [Contents.referenceRow?, h.fileId?_eq_some.2 hartifact, h.fileId?_eq_some.2 hfile]

/-- The rows of references are the rows of the facts, in order. -/
theorem Mirrors.references_rows (h : c.Mirrors L) (hs : c.Settled)
    (hnamed : ∀ f ∈ L.references, f.Named) :
    List.Forall₂ (fun r f => c.referenceRow? f = some r.toReferenceRecord) c.references L.references :=
  forall₂_imp_mem h.references fun r f hr hf hreads =>
    h.sound.referenceRow? hreads (hnamed f hf) (hs.targets r hr) (hs.scopes r hr)

theorem linkTo_id (c : Contents) (k : EntityKey) : (c.linkTo k).id = c.entityId? k := by
  unfold linkTo
  cases c.entityId? k <;> rfl

/-- What a query for references to the entity with key `k` makes of the row of a fact. -/
theorem Sound.referenceInfo?_row (h : c.Sound) {r : ReferenceRow} {f : ReferenceFact}
    (hr : c.referenceRow? f = some r.toReferenceRecord) {id : Int} {k : EntityKey} (hk : c.names.key? id = some k) :
    c.referenceInfo? id r =
      if f.target = k then some ⟨id, f.location, f.kind, f.scope.bind c.entityId?⟩ else none := by
  simp only [Contents.referenceRow?, Option.bind_eq_bind, Option.bind_eq_some_iff, Option.pure_def,
    Option.some.injEq] at hr
  obtain ⟨artifact, -, file, hfile, hrow⟩ := hr
  have htarget : (c.linkTo f.target).id = some id ↔ f.target = k := by
    rw [linkTo_id, h.entityId?_eq_some, hk, Option.some_inj, eq_comm]
  have hscope : (f.scope.elim {} c.linkTo).id = f.scope.bind c.entityId? := by
    cases f.scope with
    | none => rfl
    | some k => exact linkTo_id c k
  simp only [referenceInfo?, ← hrow, htarget, hscope, h.fileId?_eq_some.1 hfile, Option.map_some]

/-- The query finds the facts about the entity, in order. -/
theorem Mirrors.referenceInfos_rows (h : c.Mirrors L) (hs : c.Settled)
    (hnamed : ∀ f ∈ L.references, f.Named) {id : Int} {k : EntityKey} (hk : c.names.key? id = some k) :
    c.references.filterMap (c.referenceInfo? id) =
      (L.references.filter (·.target = k)).map fun f =>
        ⟨id, f.location, f.kind, f.scope.bind c.entityId?⟩ := by
  have hrows := h.references_rows hs hnamed
  generalize c.references = rows, L.references = facts at hrows
  induction hrows with
  | nil => rfl
  | @cons r f _ _ hr _ ih =>
    rw [List.filterMap_cons, h.sound.referenceInfo?_row hr hk, List.filter_cons, ih]
    by_cases hf : f.target = k <;> simp [hf]

/-- The one link to a key shows no other key. -/
theorem Sound.eq_of_shows_linkTo (h : c.Sound) {k k' : EntityKey} (hl : c.names.Shows (c.linkTo k) k')
    (hk : k'.name ≠ "") : k' = k := by
  obtain ⟨k'', hl, hcovers⟩ := hl
  obtain rfl := hcovers.eq_of_named hk
  generalize hlink : c.linkTo k = l at hl
  unfold linkTo at hlink
  cases hid : c.entityId? k with
  | some id =>
    rw [hid] at hlink
    subst hlink
    cases hl with
    | linked hkey => exact Option.some.inj (hkey.symm.trans (h.entityId?_eq_some.1 hid))
  | none =>
    rw [hid] at hlink
    cases hl with
    | linked => exact absurd (congrArg StoredLink.id hlink) (by simp)
    | @awaiting file _ hfile =>
      simp only [EntityKey.pendingAt, StoredLink.mk.injEq, PendingKey.mk.injEq, Option.some.injEq,
        true_and] at hlink
      obtain ⟨hname, hpath, hline, hcolumn⟩ := hlink
      have hpath' := (h.fileId?_eq_some.1 hpath).symm.trans hfile
      obtain ⟨name, path, line, column⟩ := k
      simp only at hname hline hcolumn hpath'
      rw [hname, hline, hcolumn, Option.some.inj hpath']

/-- The rows that lead to a key or await it are the rows of the facts about it, in order. -/
theorem Mirrors.references_linkTo (h : c.Mirrors L) (hs : c.Settled)
    (hnamed : ∀ f ∈ L.references, f.Named) (k : EntityKey) :
    (c.references.filter (·.target = c.linkTo k)).map (some ·.toReferenceRecord) =
      (L.references.filter (·.target = k)).map c.referenceRow? := by
  have hrows : List.Forall₂
      (fun r f => c.referenceRow? f = some r.toReferenceRecord ∧ (r.target = c.linkTo k ↔ f.target = k))
      c.references L.references := by
    refine forall₂_imp_mem h.references fun r f hr hf hreads => ?_
    refine ⟨h.sound.referenceRow? hreads (hnamed f hf) (hs.targets r hr) (hs.scopes r hr),
      fun heq => ?_, fun heq => ?_⟩
    · exact h.sound.eq_of_shows_linkTo (heq ▸ hreads.target) (hnamed f hf).target
    · exact heq ▸ h.sound.eq_linkTo hreads.target (hnamed f hf).target (hs.targets r hr)
  have hfiltered := forall₂_filter hrows (p := fun r => decide (r.target = c.linkTo k))
    (q := fun f => decide (f.target = k)) fun r f hr => decide_eq_decide.2 hr.2
  refine List.forall₂_eq_eq_eq ▸ List.forall₂_map_left_iff.2 (List.forall₂_map_right_iff.2 ?_)
  exact hfiltered.imp fun r f hr => hr.1.symm

end Contents

end Crossref
