/-
Linking a batch. Every owned declaration gets an id that reads as its key; then
each target, scope and parameter is linked to an entity that its key covers, or
stays pending with that key. Looking up changes nothing in the store.
-/
import Crossref.Proofs.Artifact.Named
import Crossref.Proofs.Resolver
import Crossref.Proofs.Store.Statements

namespace Crossref

open StoreM

/-! ## What is linked -/

namespace Names

variable {n n' : Names}

/-- A key may be taken for an id. -/
def Answers (n : Names) (key : EntityKey) (id : Int) : Prop :=
  ∃ k, n.key? id = some k ∧ key.Covers k

theorem Answers.eq_of_named {key : EntityKey} {id : Int} (h : n.Answers key id) (hk : key.name ≠ "") :
    n.key? id = some key := by
  obtain ⟨k, hid, hcovers⟩ := h
  rw [hid, hcovers.eq_of_named hk]

/-- The link stands for a key whose place fits into words. -/
structure LinksKey (n : Names) (key : EntityKey) (l : Link) : Prop where
  fits : key.location.Fits
  linked : ∀ id ∈ l.id?, n.Answers key id
  pending : ∀ k ∈ l.pending?, k = key

structure LinksReference (n : Names) (r : Reference) (l : LinkedReference) : Prop where
  target : n.LinksKey r.target l.target
  location : l.location = r.location
  kind : l.kind = r.kind
  scope : Option.Rel n.LinksKey r.scope l.scope

structure LinksParameter (n : Names) (p : Parameter) (l : LinkedParameter) : Prop where
  owner : n.key? l.owner = some p.owner
  parameter : n.LinksKey p.key l.parameter
  mode : l.mode = p.mode
  ordinal : l.ordinal = p.ordinal

structure LinksDeclaration (n : Names) (d : Declaration) (l : Int × Declaration) : Prop where
  key : n.key? l.1 = some d.key
  declaration : l.2 = d

structure LinksUnit (n : Names) (u : CompilationUnit) (l : LinkedUnit) : Prop where
  unit : l.unit = u
  declarations : List.Forall₂ n.LinksDeclaration u.owned l.declarations
  references : List.Forall₂ n.LinksReference u.references l.references
  parameters : List.Forall₂ n.LinksParameter u.ownParameters l.parameters

/-! Links stay right while names are added. -/

section
variable (hn : n.Extends n')
include hn

theorem Answers.extend {key : EntityKey} {id : Int} (h : n.Answers key id) : n'.Answers key id :=
  let ⟨k, hid, hk⟩ := h
  ⟨k, hn.key hid, hk⟩

theorem LinksKey.extend {key : EntityKey} {l : Link} (h : n.LinksKey key l) : n'.LinksKey key l :=
  { h with linked := fun id hid => (h.linked id hid).extend hn }

theorem LinksReference.extend {r : Reference} {l : LinkedReference} (h : n.LinksReference r l) :
    n'.LinksReference r l := by
  have hscope := h.scope
  refine { h with target := h.target.extend hn, scope := ?_ }
  generalize r.scope = k at hscope ⊢
  generalize l.scope = m at hscope ⊢
  cases hscope with
  | none => exact .none
  | some hk => exact .some (hk.extend hn)

theorem LinksParameter.extend {p : Parameter} {l : LinkedParameter} (h : n.LinksParameter p l) :
    n'.LinksParameter p l :=
  { h with owner := hn.key h.owner, parameter := h.parameter.extend hn }

theorem LinksUnit.extend {u : CompilationUnit} {l : LinkedUnit} (h : n.LinksUnit u l) :
    n'.LinksUnit u l where
  unit := h.unit
  declarations := h.declarations.imp fun _ _ hd => { hd with key := hn.key hd.key }
  references := h.references.imp fun _ _ hr => hr.extend hn
  parameters := h.parameters.imp fun _ _ hp => hp.extend hn

end

end Names

/-! ## The table of a batch -/

namespace KeyTable

/-- Every entry of the table is an id that reads as its key. -/
structure Reads (n : Names) (t : KeyTable) : Prop where
  key : ∀ e ∈ t.entries, n.key? e.2 = some e.1
  fits : ∀ e ∈ t.entries, e.1.location.Fits

variable {n n' : Names} {t : KeyTable}

theorem Reads.extend (h : Reads n t) (hn : n.Extends n') : Reads n' t :=
  ⟨fun e he => hn.key (h.key e he), h.fits⟩

theorem Reads.insert (h : Reads n t) {key : EntityKey} {id : Int} (hid : n.key? id = some key)
    (hfits : key.location.Fits) : Reads n (t.insert key id) := by
  have hcases : ∀ e ∈ (t.insert key id).entries, e = (key, id) ∨ e ∈ t.entries := by
    unfold KeyTable.insert
    split
    · simp only [List.mem_map]
      intro _ hmem
      obtain ⟨e, he, rfl⟩ := hmem
      split
      · exact .inl rfl
      · exact .inr he
    · simp only [List.mem_append, List.mem_singleton]
      exact fun e he => he.symm
  constructor
  · intro e he
    rcases hcases e he with rfl | he
    · exact hid
    · exact h.key e he
  · intro e he
    rcases hcases e he with rfl | he
    · exact hfits
    · exact h.fits e he

theorem contains_insert {key k : EntityKey} {id : Int} :
    (t.insert key id).contains k = (decide (k = key) || t.contains k) := by
  refine Bool.eq_iff_iff.2 ?_
  unfold KeyTable.insert KeyTable.contains
  simp only [Bool.or_eq_true, List.any_eq_true, decide_eq_true_eq]
  split
  next hany =>
    simp only [List.mem_map]
    constructor
    · intro h
      obtain ⟨_, ⟨e, he, rfl⟩, hk⟩ := h
      split at hk
      · exact .inl hk.symm
      · exact .inr ⟨e, he, hk⟩
    · intro h
      rcases h with rfl | ⟨e, he, rfl⟩
      · obtain ⟨e, he, heq⟩ := hany
        exact ⟨_, ⟨e, he, rfl⟩, by rw [if_pos heq]⟩
      · exact ⟨_, ⟨e, he, rfl⟩, by split <;> simp [*]⟩
  next =>
    simp only [List.mem_append, List.mem_singleton]
    constructor
    · intro h
      rcases h with ⟨e, he | rfl, hk⟩
      · exact .inr ⟨e, he, hk⟩
      · exact .inl hk.symm
    · intro h
      rcases h with rfl | ⟨e, he, hk⟩
      · exact ⟨_, .inr rfl, rfl⟩
      · exact ⟨e, .inl he, hk⟩

theorem Reads.get? (h : Reads n t) {key : EntityKey} {id : Int} (hid : t.get? key = some id) :
    n.Answers key id ∧ key.location.Fits := by
  obtain ⟨e, he, rfl⟩ := Option.map_eq_some_iff.1 hid
  have hmem := List.mem_of_find?_eq_some he
  have hp := List.find?_some he
  split at hp
  next hempty =>
    have hlocation : e.1.location = key.location := by simpa using hp
    exact ⟨⟨e.1, h.key e hmem, hlocation, .inl hempty⟩, hlocation ▸ h.fits e hmem⟩
  next =>
    obtain rfl : e.1 = key := by simpa using hp
    exact ⟨⟨e.1, h.key e hmem, .refl _⟩, h.fits e hmem⟩

/-- A registered key with a name has an id in the table. -/
theorem Reads.idOf (h : Reads n t) {key : EntityKey} (hkey : t.contains key = true)
    (hname : key.name ≠ "") : n.key? (t.idOf key) = some key := by
  obtain ⟨e, he, hk⟩ := List.any_eq_true.1 hkey
  have hsome : (t.get? key).isSome = true := by
    simp only [KeyTable.get?, hname, if_false, Option.isSome_map, List.find?_isSome]
    exact ⟨e, he, by simpa using hk⟩
  obtain ⟨id, hid⟩ := Option.isSome_iff_exists.1 hsome
  rw [KeyTable.idOf, hid, Option.getD_some]
  exact (h.get? hid).1.eq_of_named hname

end KeyTable

/-! ## Registering -/

section
variable {s : Store} {c : Contents} {L : Ledger} {fit : Prop}

theorem registerDeclaration_ends (h : c.Mirrors L) (d : Declaration)
    (hfit : fit → d.key.location.Fits) :
    Ends s (Update.registerDeclaration d) c
      (fun id c' => c'.Mirrors (L.register d) ∧ c.names.Extends c'.names ∧
        c'.names.key? id = some d.key ∧ d.key.location.Fits)
      (Refused fit) := by
  refine (Store.ensureFile_ends h d.key.file).bind fun file c₁ hc₁ => ?_
  refine (Store.putEntity_ends hc₁.mirrors hc₁.path d.kind hfit).weaken ?_
  intro id c₂ hpost
  obtain ⟨hm, hn, hid, hfits⟩ := hpost
  exact ⟨hm, hc₁.extend.trans hn, hid, hfits⟩

/-- The table holds every key that was registered, and nothing is registered that does not fit. -/
structure Registered (ds : List Declaration) (t : KeyTable) (c : Contents) : Prop where
  reads : KeyTable.Reads c.names t
  contains : ∀ d ∈ ds, t.contains d.key = true
  fits : ∀ d ∈ ds, d.key.location.Fits

theorem register_ends (h : c.Mirrors L) (units : List CompilationUnit)
    (hfit : fit → ∀ d ∈ units.flatMap (·.owned), d.key.location.Fits) :
    Ends s (register Update.registerDeclaration units) c
      (fun t c' => c'.Mirrors ((units.flatMap (·.owned)).foldl Ledger.register L) ∧
        Registered (units.flatMap (·.owned)) t c')
      (Refused fit) := by
  unfold register
  generalize units.flatMap (·.owned) = ds at hfit ⊢
  let I : List Declaration → KeyTable → Contents → Prop := fun rest t c =>
    ∃ done, ds = done ++ rest ∧ c.Mirrors (done.foldl Ledger.register L) ∧ Registered done t c
  have hstart : I ds .empty c :=
    ⟨[], rfl, h, ⟨by simp [KeyTable.empty], by simp [KeyTable.empty]⟩, by simp, by simp⟩
  refine (Ends.foldlM I ?_ hstart).weaken ?_
  · intro d rest t c hI
    obtain ⟨done, hds, hm, ht⟩ := hI
    refine (registerDeclaration_ends hm d fun hf => hfit hf d (by simp [hds])).bind ?_
    intro id c' hpost
    obtain ⟨hm', hn, hid, hfits⟩ := hpost
    refine Ends.pure ⟨done ++ [d], by simp [hds], by simpa using hm', ?_⟩
    refine ⟨(ht.reads.extend hn).insert hid hfits, fun d' hd' => ?_, fun d' hd' => ?_⟩
    · rw [KeyTable.contains_insert]
      rcases List.mem_append.1 hd' with hd' | hd'
      · rw [ht.contains d' hd', Bool.or_true]
      · simp [List.mem_singleton.1 hd']
    · rcases List.mem_append.1 hd' with hd' | hd'
      · exact ht.fits d' hd'
      · rwa [List.mem_singleton.1 hd']
  · intro t c' hI
    obtain ⟨done, hds, hm, ht⟩ := hI
    rw [List.append_nil] at hds
    exact hds ▸ ⟨hm, ht⟩

/-! ## Looking up -/

/-- What was asked outside before is still right. -/
def Remembers (n : Names) (memo : Memo) : Prop :=
  ∀ e ∈ memo, e.1.location.Fits ∧ ∀ id ∈ e.2, n.Answers e.1 id

/-- What is not registered is asked outside, and the answer is remembered with those before. -/
theorem lookup_remembers {t : KeyTable} {memo : Memo} {M : EntityKey → Option Int → Prop}
    {bad : Failure → Contents → Prop} (hmemo : ∀ e ∈ memo, M e.1 e.2) {key : EntityKey}
    (hfind : Ends s (Store.findEntity key) c (fun answer c' => c' = c ∧ M key answer) bad) :
    Ends s (t.lookup (some Store.findEntity) key memo) c
      (fun a c' => c' = c ∧ (∀ e ∈ a.2, M e.1 e.2) ∧
        ((∃ id, t.get? key = some id ∧ a.1 = some id) ∨ t.get? key = none ∧ M key a.1)) bad := by
  cases hget : t.get? key with
  | some id =>
    rw [KeyTable.lookup_of_registered hget]
    exact Ends.pure ⟨rfl, hmemo, .inl ⟨id, rfl, rfl⟩⟩
  | none =>
    cases hlookup : memo.lookup key with
    | some answer =>
      rw [KeyTable.lookup_of_remembered hget hlookup]
      obtain ⟨before, after, hsplit, -⟩ := List.lookup_eq_some_iff.1 hlookup
      exact Ends.pure ⟨rfl, hmemo, .inr ⟨rfl, hmemo (key, answer) (by simp [hsplit])⟩⟩
    | none =>
      rw [KeyTable.lookup_of_new hget hlookup]
      refine hfind.bind ?_
      intro answer _ hpost
      obtain ⟨rfl, hanswer⟩ := hpost
      refine Ends.pure ⟨rfl, fun e he => ?_, .inr ⟨rfl, hanswer⟩⟩
      rcases List.mem_append.1 he with he | he
      · exact hmemo e he
      · exact List.mem_singleton.1 he ▸ hanswer

theorem lookup_ends (h : c.Mirrors L) {t : KeyTable} (ht : KeyTable.Reads c.names t) {memo : Memo}
    (hmemo : Remembers c.names memo) (key : EntityKey) (hfit : fit → key.location.Fits) :
    Ends s (t.lookup (some Store.findEntity) key memo) c
      (fun a c' => c' = c ∧ Remembers c.names a.2 ∧ key.location.Fits ∧
        ∀ id ∈ a.1, c.names.Answers key id)
      (Refused fit) := by
  refine (lookup_remembers (M := fun k answer => k.location.Fits ∧ ∀ id ∈ answer, c.names.Answers k id) hmemo
    (Store.findEntity_ends h key hfit)).weaken fun a c' hpost => ?_
  obtain ⟨hsame, hmemo', ⟨id, hget, hanswer⟩ | ⟨-, hfits, hanswers⟩⟩ := hpost
  · obtain ⟨hanswers, hfits⟩ := ht.get? hget
    refine ⟨hsame, hmemo', hfits, fun id' hid => ?_⟩
    obtain rfl := Option.some.inj (hanswer.symm.trans hid)
    exact hanswers
  · exact ⟨hsame, hmemo', hfits, hanswers⟩

theorem link_ends (h : c.Mirrors L) {t : KeyTable} (ht : KeyTable.Reads c.names t) {memo : Memo}
    (hmemo : Remembers c.names memo) (key : EntityKey) (hfit : fit → key.location.Fits) :
    Ends s (link t (some Store.findEntity) key memo) c
      (fun l c' => c' = c ∧ Remembers c.names l.2 ∧ c.names.LinksKey key l.1) (Refused fit) := by
  refine Ends.bind_state (lookup_ends h ht hmemo key hfit) ?_
  rintro ⟨answer, memo'⟩ _ ⟨rfl, hmemo', hfits, hanswers⟩
  cases answer with
  | some id => exact Ends.pure ⟨rfl, hmemo', hfits, hanswers, by simp [Link.pending?]⟩
  | none => exact Ends.pure ⟨rfl, hmemo', hfits, by simp [Link.id?], by simp [Link.pending?]⟩

theorem linkReference_ends (h : c.Mirrors L) {t : KeyTable} (ht : KeyTable.Reads c.names t)
    {memo : Memo} (hmemo : Remembers c.names memo) (r : Reference)
    (hfit : fit → r.target.location.Fits ∧ ∀ k ∈ r.scope, k.location.Fits) :
    Ends s (linkReference t (some Store.findEntity) r memo) c
      (fun l c' => c' = c ∧ Remembers c.names l.2 ∧ c.names.LinksReference r l.1) (Refused fit) := by
  refine Ends.bind_state (link_ends h ht hmemo r.target fun hf => (hfit hf).1) ?_
  rintro ⟨target, memo₁⟩ c ⟨rfl, hmemo₁, htarget⟩
  let I : Memo → Contents → Prop := fun memo c' => c' = c ∧ Remembers c.names memo
  refine Ends.bind_state
    (Ends.option_state I (fun _ => c.names.LinksKey) ⟨rfl, hmemo₁⟩ fun k hk => ?_) ?_
  · refine (link_ends h ht hmemo₁ k fun hf => (hfit hf).2 k hk).weaken ?_
    rintro ⟨l, memo'⟩ _ ⟨rfl, hmemo', hl⟩
    exact ⟨⟨rfl, hmemo'⟩, hl⟩
  · rintro ⟨scope, memo₂⟩ _ ⟨⟨rfl, hmemo₂⟩, hscope⟩
    exact Ends.pure ⟨rfl, hmemo₂, htarget, rfl, rfl, hscope⟩

theorem linkParameter_ends (h : c.Mirrors L) {t : KeyTable} (ht : KeyTable.Reads c.names t)
    {memo : Memo} (hmemo : Remembers c.names memo) (p : Parameter)
    (howner : t.contains p.owner = true) (hname : p.owner.name ≠ "")
    (hfit : fit → p.key.location.Fits) :
    Ends s (linkParameter t (some Store.findEntity) p memo) c
      (fun l c' => c' = c ∧ Remembers c.names l.2 ∧ c.names.LinksParameter p l.1) (Refused fit) := by
  refine Ends.bind_state (link_ends h ht hmemo p.key hfit) ?_
  rintro ⟨parameter, memo₁⟩ _ ⟨rfl, hmemo₁, hparameter⟩
  exact Ends.pure ⟨rfl, hmemo₁, ht.idOf howner hname, hparameter, rfl, rfl⟩

/-- What of a unit fits into words, as far as it reaches the store. -/
structure CompilationUnit.Fits (u : CompilationUnit) : Prop where
  owned : ∀ d ∈ u.owned, d.key.location.Fits
  locations : ∀ r ∈ u.references, r.location.Fits
  targets : ∀ r ∈ u.references, r.target.location.Fits
  scopes : ∀ r ∈ u.references, ∀ k ∈ r.scope, k.location.Fits
  ordinals : ∀ p ∈ u.ownParameters, fitsWord p.ordinal = true
  parameters : ∀ p ∈ u.ownParameters, p.key.location.Fits

instance (u : CompilationUnit) : Decidable u.Fits :=
  decidable_of_iff
    ((∀ d ∈ u.owned, d.key.location.Fits) ∧ (∀ r ∈ u.references, r.location.Fits) ∧
      (∀ r ∈ u.references, r.target.location.Fits) ∧
      (∀ r ∈ u.references, ∀ k ∈ r.scope, k.location.Fits) ∧
      (∀ p ∈ u.ownParameters, fitsWord p.ordinal = true) ∧
      ∀ p ∈ u.ownParameters, p.key.location.Fits)
    ⟨fun ⟨owned, locations, targets, scopes, ordinals, parameters⟩ =>
        ⟨owned, locations, targets, scopes, ordinals, parameters⟩,
      fun h => ⟨h.owned, h.locations, h.targets, h.scopes, h.ordinals, h.parameters⟩⟩

/-- What linking and writing a unit find out about its numbers. -/
theorem Names.LinksUnit.fits {n : Names} {u : CompilationUnit} {l : LinkedUnit} (hl : n.LinksUnit u l)
    (howned : ∀ d ∈ u.owned, d.key.location.Fits) (hlocations : ∀ r ∈ u.references, r.location.Fits)
    (hordinals : ∀ p ∈ u.ownParameters, fitsWord p.ordinal = true) : u.Fits where
  owned := howned
  locations := hlocations
  targets r hr := by
    obtain ⟨l', -, hr'⟩ := exists_right_of_forall₂ hl.references hr
    exact hr'.target.fits
  scopes r hr k hk := by
    obtain ⟨l', -, hr'⟩ := exists_right_of_forall₂ hl.references hr
    have hscope := hr'.scope
    rw [hk] at hscope
    generalize l'.scope = m at hscope
    cases hscope with
    | some hk => exact hk.fits
  ordinals := hordinals
  parameters p hp := by
    obtain ⟨l', -, hp'⟩ := exists_right_of_forall₂ hl.parameters hp
    exact hp'.parameter.fits

theorem CompilationUnit.mem_ownParameters {u : CompilationUnit} {p : Parameter} :
    p ∈ u.ownParameters ↔ p ∈ u.parameters ∧ ∃ d ∈ u.owned, d.key = p.owner := by
  simp [CompilationUnit.ownParameters]

theorem linkUnit_ends (h : c.Mirrors L) {t : KeyTable} (ht : KeyTable.Reads c.names t) {memo : Memo}
    (hmemo : Remembers c.names memo) {u : CompilationUnit} (hu : u.Named)
    (howned : ∀ d ∈ u.owned, t.contains d.key = true) (hfit : fit → u.Fits) :
    Ends s (linkUnit t (some Store.findEntity) u memo) c
      (fun l c' => c' = c ∧ Remembers c.names l.2 ∧ c.names.LinksUnit u l.1) (Refused fit) := by
  let I {ρ : Type} (all : List ρ) (rest : List ρ) (memo : Memo) (c' : Contents) : Prop :=
    c' = c ∧ Remembers c.names memo ∧ ∀ r ∈ rest, r ∈ all
  refine Ends.bind_state
    (Ends.mapM_state (· = ·) (I u.references) (fun _ => c.names.LinksReference) (fun _ => rfl)
      Eq.trans (fun _ hr => hr) ?_ ⟨rfl, hmemo, fun _ hr => hr⟩) ?_
  · intro r rest memo _ hI
    obtain ⟨rfl, hmemo, hrest⟩ := hI
    have hr := hrest r (by simp)
    refine (linkReference_ends h ht hmemo r fun hf =>
      ⟨(hfit hf).targets r hr, (hfit hf).scopes r hr⟩).weaken ?_
    rintro ⟨l, memo'⟩ _ ⟨rfl, hmemo', hl⟩
    exact ⟨⟨rfl, hmemo', fun r' hr' => hrest r' (by simp [hr'])⟩, rfl, hl⟩
  · rintro ⟨references, memo₁⟩ c ⟨⟨rfl, hmemo₁, -⟩, -, hreferences⟩
    refine Ends.bind_state
      (Ends.mapM_state (· = ·) (I u.ownParameters) (fun _ => c.names.LinksParameter) (fun _ => rfl)
        Eq.trans (fun _ hr => hr) ?_ ⟨rfl, hmemo₁, fun _ hr => hr⟩) ?_
    · intro p rest memo _ hI
      obtain ⟨rfl, hmemo, hrest⟩ := hI
      have hp := hrest p (by simp)
      obtain ⟨hpu, d, hd, hkey⟩ := CompilationUnit.mem_ownParameters.1 hp
      refine (linkParameter_ends h ht hmemo p (hkey ▸ howned d hd) (hu.owners p hpu) fun hf =>
        (hfit hf).parameters p hp).weaken ?_
      rintro ⟨l, memo'⟩ _ ⟨rfl, hmemo', hl⟩
      exact ⟨⟨rfl, hmemo', fun r' hr' => hrest r' (by simp [hr'])⟩, rfl, hl⟩
    · rintro ⟨parameters, memo₂⟩ _ ⟨⟨rfl, hmemo₂, -⟩, -, hparameters⟩
      refine Ends.pure ⟨rfl, hmemo₂, rfl, ?_, hreferences, hparameters⟩
      refine List.forall₂_map_right_iff.2 (List.forall₂_same.2 fun d hd => ⟨?_, rfl⟩)
      exact ht.idOf (howned d hd) (hu.declarations d (List.mem_of_mem_filter hd))

/-- **A batch is linked.** Its owned declarations are registered, each unit is linked to what
its keys cover, and nothing else changes. -/
theorem linkBatch_ends (h : c.Mirrors L) {units : List CompilationUnit} (hnamed : ∀ u ∈ units, u.Named)
    (hfit : fit → ∀ u ∈ units, u.Fits) :
    Ends s (linkBatch Update.registerDeclaration (some Store.findEntity) units) c
      (fun linked c' => c'.Mirrors ((units.flatMap (·.owned)).foldl Ledger.register L) ∧
        List.Forall₂ c'.names.LinksUnit units linked ∧ ∀ u ∈ units, ∀ d ∈ u.owned, d.key.location.Fits)
      (Refused fit) := by
  have hmem {u : CompilationUnit} {d : Declaration} (hu : u ∈ units) (hd : d ∈ u.owned) :
      d ∈ units.flatMap (·.owned) :=
    List.mem_flatMap.2 ⟨u, hu, hd⟩
  have howned (hf : fit) : ∀ d ∈ units.flatMap (·.owned), d.key.location.Fits := fun d hd => by
    obtain ⟨u, hu, hd⟩ := List.mem_flatMap.1 hd
    exact (hfit hf u hu).owned d hd
  refine (register_ends h units howned).bind fun t c₁ ⟨hm, ht⟩ => ?_
  let I (rest : List CompilationUnit) (memo : Memo) (c' : Contents) : Prop :=
    c' = c₁ ∧ Remembers c₁.names memo ∧ ∀ u ∈ rest, u ∈ units
  refine Ends.bind
    (Ends.mapM_state (· = ·) I (fun _ => c₁.names.LinksUnit) (fun _ => rfl)
      Eq.trans (fun _ hr => hr) ?_ ⟨rfl, by simp [Remembers], fun _ hu => hu⟩) ?_
  · intro u rest memo _ hI
    obtain ⟨rfl, hmemo, hrest⟩ := hI
    have hu := hrest u (by simp)
    have hcontains (d : Declaration) (hd : d ∈ u.owned) : t.contains d.key = true :=
      ht.contains d (hmem hu hd)
    refine (linkUnit_ends hm ht.reads hmemo (hnamed u hu) hcontains fun hf => hfit hf u hu).weaken ?_
    rintro ⟨l, memo'⟩ _ ⟨rfl, hmemo', hl⟩
    exact ⟨⟨rfl, hmemo', fun r' hr' => hrest r' (by simp [hr'])⟩, rfl, hl⟩
  · rintro ⟨linked, memo'⟩ _ ⟨⟨rfl, -, -⟩, -, hlinked⟩
    exact Ends.pure ⟨hm, hlinked, fun u hu d hd => ht.fits d (hmem hu hd)⟩

end

end Crossref
