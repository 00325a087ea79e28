/-
A merge, as seen in a bound ledger. What is looked up for a key is the first match
among the keys that the batch registered and those that were there before, so
linking a batch is linking the bound batch. From there on the rows of parameters
that stay without a name are open, and the last relinking binds them. Every history
leads to a store that mirrors the bound ledger of its batches.
-/
import Crossref.Proofs.Store.Binding
import Crossref.Proofs.Update.Reached

namespace Crossref

open StoreM StoreM.Ends Contents

/-! ## What is linked -/

namespace Names

/-- The link stands for exactly the key. -/
structure LinksTo (n : Names) (k : EntityKey) (l : Link) : Prop where
  linked : ∀ id ∈ l.id?, n.key? id = some k
  pending : ∀ k' ∈ l.pending?, k' = k

/-- A parameter that goes without a name is pending. -/
structure BindsParameter (n : Names) (p : Parameter) (l : LinkedParameter) : Prop extends
    n.LinksParameter p l where
  pending : p.key.name = "" → l.parameter = .pending p.key

structure BindsUnit (n : Names) (u : CompilationUnit) (l : LinkedUnit) : Prop extends
    n.LinksUnit u l where
  bound : List.Forall₂ n.BindsParameter u.ownParameters l.parameters

theorem BindsUnit.extend {n n' : Names} {u : CompilationUnit} {l : LinkedUnit} (h : n.BindsUnit u l)
    (hn : n.Extends n') : n'.BindsUnit u l :=
  { h.toLinksUnit.extend hn with
    bound := h.bound.imp fun _ _ hp => { hp.toLinksParameter.extend hn with pending := hp.pending } }

end Names

/-- The linked unit as if the keys of its parameters had been bound. -/
def LinkedUnit.bound (l : LinkedUnit) (keys : List EntityKey) : LinkedUnit :=
  { l with unit := l.unit.bound keys }

/-- A unit that is linked to what the keys of its parameters are bound to is the bound unit, linked. -/
theorem Names.LinksUnit.bind {n : Names} (hn : ∀ {id k}, n.key? id = some k → k.name ≠ "")
    {u : CompilationUnit} {l : LinkedUnit} {keys : List EntityKey} (h : n.LinksUnit u l)
    (hto : List.Forall₂ (fun p l => n.LinksTo (p.key.among keys) l.parameter) u.ownParameters
      l.parameters) : n.BindsUnit (u.bound keys) (l.bound keys) := by
  have hbound : List.Forall₂ n.BindsParameter (u.bound keys).ownParameters l.parameters := by
    rw [CompilationUnit.ownParameters_bound, List.forall₂_map_left_iff]
    refine (forall₂_and h.parameters hto).imp fun p l hp => ?_
    obtain ⟨hlinks, hto⟩ := hp
    refine { hlinks with
      parameter := ⟨?_, fun id hid => ⟨_, hto.linked id hid, .refl _⟩, hto.pending⟩
      pending := fun hk => ?_ }
    · exact (EntityKey.location_among p.key keys).symm ▸ hlinks.parameter.fits
    · generalize l.parameter = link at hto ⊢
      cases link with
      | linked id => exact absurd hk (hn (hto.linked id rfl))
      | pending k => rw [hto.pending k rfl]; rfl
  exact
    { h with
      unit := congrArg (·.bound keys) h.unit
      parameters := hbound.imp fun _ _ hp => hp.toLinksParameter
      bound := hbound }

/-! ## The table of a batch -/

namespace KeyTable

def keys (t : KeyTable) : List EntityKey :=
  t.entries.map (·.1)

theorem keys_insert (t : KeyTable) (key : EntityKey) (id : Int) :
    (t.insert key id).keys = addKey t.keys key := by
  have hmem : t.entries.any (·.1 = key) = decide (key ∈ t.keys) := by
    rw [Bool.eq_iff_iff, List.any_eq_true, decide_eq_true_iff, keys, List.mem_map]
    simp only [decide_eq_true_eq]
  unfold KeyTable.insert addKey
  rw [hmem]
  by_cases h : key ∈ t.keys
  · rw [if_pos (decide_eq_true h), if_pos h, keys, List.map_map, keys]
    refine List.map_congr_left fun e _ => ?_
    simp only [Function.comp_apply]
    split
    next he => exact he.symm
    next => rfl
  · rw [if_neg (by simpa using h), if_neg h]
    simp [keys]

/-- The table answers a key without a name for the first of its keys at the place. -/
theorem Reads.get?_place {n : Names} {t : KeyTable} (h : Reads n t) {key : EntityKey}
    (hkey : key.name = "") :
    Option.Rel (fun id k => n.key? id = some k) (t.get? key)
      (t.keys.find? (·.location = key.location)) := by
  unfold KeyTable.get? keys
  rw [List.find?_map]
  simp only [hkey, if_true, Function.comp_def]
  cases hfind : t.entries.find? (fun e => decide (e.1.location = key.location)) with
  | none => exact .none
  | some e => exact .some (h.key e (List.mem_of_find?_eq_some hfind))

end KeyTable

section
variable {s : Store} {c : Contents} {L : Ledger}

theorem register_keys (units : List CompilationUnit) :
    Ends s (register Update.registerDeclaration units) c
      (fun t _ => t.keys = ((units.flatMap (·.owned)).map (·.key)).foldl addKey []) fun _ _ => True := by
  unfold register
  generalize units.flatMap (·.owned) = ds
  let I (rest : List Declaration) (t : KeyTable) (_ : Contents) : Prop :=
    (rest.map (·.key)).foldl addKey t.keys = (ds.map (·.key)).foldl addKey []
  refine (Ends.foldlM I (fun d rest t c hI => ?_) (show I ds .empty c from rfl)).weaken fun t _ hI => hI
  refine (Ends.of_acts (Acts.composes.registerDeclaration Store.ensureFile_keepsParameters
    Store.putEntity_keepsParameters d) s c).bind fun id _ _ => Ends.pure ?_
  change (rest.map (·.key)).foldl addKey (t.insert d.key id).keys = _
  rw [KeyTable.keys_insert]
  exact hI

/-! ## Looking up -/

/-- What was asked outside before is what the contents answer. -/
def Recalls (c : Contents) (memo : Memo) : Prop :=
  ∀ e ∈ memo, e.2 = (c.entity? e.1).map (·.id)

theorem lookup_answers (h : c.Complete) {t : KeyTable} {memo : Memo} (hmemo : Recalls c memo)
    (key : EntityKey) :
    Ends s (t.lookup (some Store.findEntity) key memo) c
      (fun a c' => c' = c ∧ Recalls c a.2 ∧ a.1 = (t.get? key).or ((c.entity? key).map (·.id)))
      (Refused False) := by
  have hfind : Ends s (Store.findEntity key) c (fun answer c' => c' = c ∧ answer = (c.entity? key).map (·.id))
      (Refused False) := (query h (refuses_of_fits False.elim)).weaken fun _ _ hpost => ⟨hpost.2.1, hpost.1⟩
  refine (lookup_remembers (M := fun k answer => answer = (c.entity? k).map (·.id)) hmemo hfind).weaken fun a c' hpost => ?_
  obtain ⟨hsame, hmemo', ⟨id, hget, hanswer⟩ | ⟨hget, hanswer⟩⟩ := hpost
  · exact ⟨hsame, hmemo', by rw [hget, hanswer, Option.some_or]⟩
  · exact ⟨hsame, hmemo', by rw [hget, hanswer, Option.none_or]⟩

theorem entity?_place {key : EntityKey} (hkey : key.name = "") (e : EntityRow) (k : EntityKey)
    (hk : c.keyOf? e = some k) :
    ((key.name = "" || e.name = key.name) && c.filePath? e.fileId = some key.file && e.line = key.line &&
      e.column = key.column) = decide (k.location = key.location) := by
  obtain ⟨hpath, -, hline, hcolumn⟩ := keyOf?_eq_some.1 hk
  simp [hkey, hpath, hline, hcolumn, EntityKey.location, Bool.decide_and, Bool.and_assoc]

/-- An entity that is found for a key with a name has that key. -/
theorem Contents.Mirrors.key?_of_entity? (h : c.Mirrors L) {key : EntityKey} (hkey : key.name ≠ "") {e : EntityRow}
    (he : c.entity? key = some e) : c.names.key? e.id = some key := by
  have hat := List.find?_some he
  simp only [hkey, decide_false, Bool.false_or, Bool.and_eq_true, decide_eq_true_eq] at hat
  obtain ⟨⟨⟨hname, hfile⟩, hline⟩, hcolumn⟩ := hat
  rw [h.sound.key?_of_mem (List.mem_of_find?_eq_some he)]
  exact keyOf?_eq_some.2 ⟨hfile, hname, hline, hcolumn⟩

/-- What is answered for a key is what the key is bound to, among the keys of the table and then
those of the entities. -/
theorem answer_binds (h : c.Mirrors L) {t : KeyTable} (ht : KeyTable.Reads c.names t) (key : EntityKey) :
    match (t.get? key).or ((c.entity? key).map (·.id)) with
    | some id => c.names.key? id = some (key.among (t.keys ++ L.keys))
    | none => key.among (t.keys ++ L.keys) = key := by
  by_cases hk : key.name = ""
  · have htable := ht.get?_place hk
    have hcontents := h.find_place (entity?_place (c := c) hk)
    change Option.Rel _ (c.entity? key) _ at hcontents
    have hfind : (t.keys ++ L.keys).find? (·.location = key.location) = _ := List.find?_append
    generalize t.get? key = id, t.keys.find? _ = k at htable hfind ⊢
    cases htable with
    | some hid =>
      rw [EntityKey.among_of_some hk (hfind.trans Option.some_or)]
      exact hid
    | none =>
      rw [Option.none_or] at hfind
      generalize c.entity? key = e, L.keys.find? _ = k at hcontents hfind ⊢
      cases hcontents with
      | some hid =>
        rw [EntityKey.among_of_some hk hfind]
        exact hid
      | none => exact EntityKey.among_of_none hfind
  · rw [EntityKey.among_of_named hk]
    cases hget : t.get? key with
    | some id => exact (ht.get? hget).1.eq_of_named hk
    | none =>
      cases hentity : c.entity? key with
      | some e => exact h.key?_of_entity? hk hentity
      | none => rfl

theorem link_binds (h : c.Mirrors L) {t : KeyTable} (ht : KeyTable.Reads c.names t) {memo : Memo}
    (hmemo : Recalls c memo) (key : EntityKey) :
    Ends s (link t (some Store.findEntity) key memo) c
      (fun l c' => c' = c ∧ Recalls c l.2 ∧ c.names.LinksTo (key.among (t.keys ++ L.keys)) l.1)
      (Refused False) := by
  have hanswer := answer_binds h ht key
  refine Ends.bind_state (lookup_answers h.complete hmemo key) ?_
  rintro ⟨answer, memo'⟩ _ ⟨rfl, hmemo', rfl⟩
  generalize (t.get? key).or _ = answer at hanswer ⊢
  cases answer with
  | some id => exact Ends.pure ⟨rfl, hmemo', by simpa [Link.id?] using hanswer, by simp [Link.pending?]⟩
  | none =>
    exact Ends.pure ⟨rfl, hmemo', by simp [Link.id?], by simpa [Link.pending?] using hanswer.symm⟩

theorem linkReference_recalls (h : c.Mirrors L) {t : KeyTable} (ht : KeyTable.Reads c.names t)
    {memo : Memo} (hmemo : Recalls c memo) (r : Reference) :
    Ends s (linkReference t (some Store.findEntity) r memo) c
      (fun l c' => c' = c ∧ Recalls c l.2) (Refused False) := by
  refine Ends.bind_state (link_binds h ht hmemo r.target) ?_
  rintro ⟨target, memo₁⟩ c ⟨rfl, hmemo₁, -⟩
  let I : Memo → Contents → Prop := fun memo c' => c' = c ∧ Recalls c memo
  refine Ends.bind_state
    (Ends.option_state I (fun _ _ _ => True) ⟨rfl, hmemo₁⟩ fun k _ => ?_) ?_
  · exact (link_binds h ht hmemo₁ k).weaken fun _ _ hpost => ⟨⟨hpost.1, hpost.2.1⟩, trivial⟩
  · rintro ⟨scope, memo₂⟩ _ ⟨hI, -⟩
    exact Ends.pure hI

/-- The parameters of a unit are linked to what their keys are bound to. -/
theorem linkUnit_binds (h : c.Mirrors L) {t : KeyTable} (ht : KeyTable.Reads c.names t) {memo : Memo}
    (hmemo : Recalls c memo) (u : CompilationUnit) :
    Ends s (linkUnit t (some Store.findEntity) u memo) c
      (fun l c' => c' = c ∧ Recalls c l.2 ∧ List.Forall₂
        (fun p l => c.names.LinksTo (p.key.among (t.keys ++ L.keys)) l.parameter) u.ownParameters
        l.1.parameters)
      (Refused False) := by
  let I {ρ : Type} (_ : List ρ) (memo : Memo) (c' : Contents) : Prop := c' = c ∧ Recalls c memo
  refine Ends.bind_state
    (Ends.mapM_state (· = ·) I (fun _ _ _ => True) (fun _ => rfl) Eq.trans (fun _ hr => hr)
      (fun r _ memo _ hI => ?_) ⟨rfl, hmemo⟩) ?_
  · obtain ⟨rfl, hmemo⟩ := hI
    exact (linkReference_recalls h ht hmemo r).weaken fun _ _ hpost => ⟨hpost, hpost.1.symm, trivial⟩
  · rintro ⟨references, memo₁⟩ c ⟨⟨rfl, hmemo₁⟩, -, -⟩
    refine Ends.bind_state
      (Ends.mapM_state (· = ·) I
        (fun _ (p : Parameter) (l : LinkedParameter) =>
          c.names.LinksTo (p.key.among (t.keys ++ L.keys)) l.parameter)
        (fun _ => rfl) Eq.trans (fun _ hr => hr) (fun p _ memo _ hI => ?_) ⟨rfl, hmemo₁⟩) ?_
    · obtain ⟨rfl, hmemo⟩ := hI
      refine Ends.bind_state (link_binds h ht hmemo p.key) ?_
      rintro ⟨parameter, memo'⟩ _ ⟨rfl, hmemo', hl⟩
      exact Ends.pure ⟨⟨rfl, hmemo'⟩, rfl, hl⟩
    · rintro ⟨parameters, memo₂⟩ _ ⟨⟨rfl, hmemo₂⟩, -, hparameters⟩
      exact Ends.pure ⟨rfl, hmemo₂, hparameters⟩

/-- **Linking a batch is linking the bound batch.** -/
theorem linkBatch_binds (h : c.Binds L) (hL : ∀ k ∈ L.keys, k.name ≠ "") {units : List CompilationUnit}
    (hnamed : ∀ u ∈ units, u.Named) {keys : List EntityKey}
    (hkeys : keys = (units.flatMap (·.owned)).map (·.key) ++ L.keys) :
    Ends s (linkBatch Update.registerDeclaration (some Store.findEntity) units) c
      (fun linked c' => c'.Binds ((units.flatMap (·.owned)).foldl Ledger.register L) ∧
        List.Forall₂ (fun u l => c'.names.BindsUnit (u.bound keys) (l.bound keys)) units linked)
      (Refused False) := by
  have hkeep : Acts KeepsParameters (register Update.registerDeclaration units) :=
    Acts.composes.register Store.ensureFile_keepsParameters Store.putEntity_keepsParameters units
  refine (((register_ends h.toMirrors units False.elim).and (register_keys units)).keeping hkeep).bind
    fun t c₁ ⟨⟨⟨hm, ht⟩, htable⟩, hkeep⟩ => ?_
  have hparameters : ((units.flatMap (·.owned)).foldl Ledger.register L).parameters = L.parameters :=
    Ledger.foldl_keeps (g := Ledger.parameters) (f := Ledger.register) (fun _ _ => rfl) _ L
  have hthere := Ledger.keys_registerAll (units.flatMap (·.owned)) L
  generalize hL₁ : (units.flatMap (·.owned)).foldl Ledger.register L = L₁ at *
  have hL₁named : ∀ k ∈ L₁.keys, k.name ≠ "" := by
    intro k hk
    rw [hthere] at hk
    exact (mem_addKeys hk).elim (hL k) (owned_named hnamed k)
  have hsame (key : EntityKey) : key.among (t.keys ++ L₁.keys) = key.among keys := by
    refine EntityKey.among_congr ?_
    rw [hkeys, htable, hthere, List.find?_append, find?_addKeys, find?_addKeys, List.nil_append,
      List.find?_append, List.find?_append]
    cases List.find? _ (List.map _ _) <;> simp
  let I (rest : List CompilationUnit) (memo : Memo) (c' : Contents) : Prop :=
    c' = c₁ ∧ Remembers c₁.names memo ∧ Recalls c₁ memo ∧ ∀ u ∈ rest, u ∈ units
  refine Ends.bind
    (Ends.mapM_state (· = ·) I
      (fun _ (u : CompilationUnit) (l : LinkedUnit) => c₁.names.BindsUnit (u.bound keys) (l.bound keys))
      (fun _ => rfl) Eq.trans (fun _ hr => hr) ?_
      ⟨rfl, by simp [Remembers], by simp [Recalls], fun _ hu => hu⟩) ?_
  · intro u rest memo _ hI
    obtain ⟨rfl, hmemo, hrecalls, hrest⟩ := hI
    have hu := hrest u (by simp)
    have hcontains (d : Declaration) (hd : d ∈ u.owned) : t.contains d.key = true :=
      ht.contains d (List.mem_flatMap.2 ⟨u, hu, hd⟩)
    refine ((linkUnit_ends hm ht.reads hmemo (hnamed u hu) hcontains False.elim).and
      (linkUnit_binds hm ht.reads hrecalls u)).weaken ?_
    rintro ⟨l, memo'⟩ _ ⟨⟨rfl, hmemo', hl⟩, -, hrecalls', hto⟩
    simp only [hsame] at hto
    exact ⟨⟨rfl, hmemo', hrecalls', fun u' hu' => hrest u' (by simp [hu'])⟩, rfl,
      hl.bind (hm.named hL₁named) hto⟩
  · rintro ⟨linked, memo'⟩ _ ⟨⟨rfl, -⟩, -, hlinked⟩
    exact Ends.pure ⟨h.keep hkeep hm hparameters, hlinked⟩

end

/-! ## Writing -/

namespace Update

variable {s : Store} {c : Contents} {L : Ledger}

/-- A pending link without a name is stored as an open one. -/
theorem storedLink_open (l : Link) (ids : FileIds) :
    Ends s (storedLink l ids) c
      (fun a _ => ∀ k, l = .pending k → k.name = "" → a.1.Open) fun _ _ => True := by
  cases l with
  | linked id => exact Ends.pure nofun
  | pending k =>
    have hfile := Ends.of_acts (Acts.composes.fileId Store.ensureFile_keepsParameters k.file ids) s c
    refine Ends.bind_state hfile fun _ _ _ => Ends.pure fun k' hk' hname => ?_
    obtain rfl := Link.pending.inj hk'
    exact ⟨rfl, congrArg some hname⟩

theorem parameterRow_binds {n : Names} {ids : FileIds} (h : Collects L n ids c) {artifactId : Int}
    {path : String} (hid : n.path? artifactId = some path) (l : LinkedParameter) :
    Ends s (parameterRow artifactId l ids) c
      (fun a c' => Collects L c.names a.2 c' ∧
        ∀ p, n.BindsParameter p l → c'.names.ParameterBinds a.1 (p.fact path))
      (Refused False) := by
  have hopen : Ends s (parameterRow artifactId l ids) c
      (fun a _ => ∀ k, l.parameter = .pending k → k.name = "" → a.1.parameter.Open) fun _ _ => True :=
    Ends.bind_state (storedLink_open l.parameter ids) fun _ _ ha => Ends.pure ha
  refine ((parameterRow_ends h hid l).and hopen).weaken fun a c' hpost => ?_
  obtain ⟨⟨hc', hreads⟩, hopen⟩ := hpost
  exact ⟨hc', fun p hp =>
    { hreads p hp.toLinksParameter with opens := fun hk => hopen p.key (hp.pending hk) hk }⟩

theorem writeParameters_binds {n : Names} {ids : FileIds} (h : Collects L n ids c) (hb : c.Binds L)
    {artifactId : Int} {path : String} (hid : n.path? artifactId = some path) {u : CompilationUnit}
    {l : LinkedUnit} (hl : n.BindsUnit u l) :
    Ends s (writeParameters artifactId l ids) c
      (fun _ c' => c'.Binds (L.putParameters (u.parameterFacts path)) ∧ n.Extends c'.names)
      (Refused False) := by
  have hkeep : Acts KeepsParameters (l.parameters.mapM (parameterRow artifactId) ids) :=
    Acts.composes.mapM_state (Acts.composes.parameterRow Store.ensureFile_keepsParameters artifactId) l.parameters ids
  refine Ends.bind_state ((collectRows_ends Names.ParameterBinds (·.fact path) h
    (fun hn hr => { hr.toParameterReads.extend hn with opens := hr.opens })
    (fun h' b => parameterRow_binds h' hid b) hl.bound).keeping hkeep) ?_
  rintro ⟨rows, ids'⟩ c₁ ⟨⟨h₁, hrows⟩, hkeep⟩
  refine (Ends.lift_state (Store.putParameters_binds (hb.keep hkeep h₁.mirrors rfl) hrows)).weaken ?_
  rintro ⟨_, _⟩ c₂ ⟨⟨hb₂, hn⟩, rfl⟩
  exact ⟨hb₂, hn ▸ h₁.extend⟩

theorem writeLinks_binds (h : c.Binds L) {artifactId : Int} {path : String}
    (hid : c.names.path? artifactId = some path) {u : CompilationUnit} {l : LinkedUnit}
    (hl : c.names.BindsUnit u l) :
    Ends s (StateT.run' (do writeReferences artifactId l; writeParameters artifactId l) []) c
      (fun _ c' =>
        c'.Binds ((L.addReferences (u.referenceFacts path)).putParameters (u.parameterFacts path)) ∧
        c.names.Extends c'.names)
      (Refused False) := by
  have hkeep : Acts KeepsParameters (writeReferences artifactId l []) :=
    Acts.composes.writeReferences Store.ensureFile_keepsParameters Store.addReferences_keepsParameters artifactId
      l []
  have hboth : Ends s
      ((do writeReferences artifactId l; writeParameters artifactId l : StateT FileIds StoreM PUnit) [])
      c (fun _ c' =>
        c'.Binds ((L.addReferences (u.referenceFacts path)).putParameters (u.parameterFacts path)) ∧
        c.names.Extends c'.names) (Refused False) := by
    refine Ends.bind_state ((writeReferences_ends (.start h.toMirrors) hid hl.toLinksUnit
      False.elim).keeping hkeep) fun a c₁ ⟨⟨h₁, _⟩, hkeep⟩ => ?_
    exact writeParameters_binds h₁ (h.keep hkeep h₁.mirrors rfl) hid hl
  exact Ends.bind hboth fun _ _ hpost => Ends.pure hpost

/-- Writing a bound unit writes its facts. -/
theorem writeUnit_binds (h : c.Binds L) (now : Int) (st : StaleArtifact) {u : CompilationUnit} {l : LinkedUnit}
    (hl : c.names.BindsUnit u l) :
    Ends s (writeUnit now st l) c
      (fun _ c' => c'.Binds (L.write st u) ∧ c.names.Extends c'.names) (Refused False) := by
  have hunit := hl.unit
  have hkeep : Acts KeepsParameters (writeFiles st.artifact l.unit) :=
    Acts.composes.writeFiles Store.putFile_keepsParameters Store.stampFile_keepsParameters
      Store.replaceDependencies_keepsParameters st.artifact l.unit
  refine ((writeFiles_ends h.toMirrors st.artifact l.unit).keeping hkeep).bind
    fun id c₁ ⟨⟨hm₁, hn₁, hid₁⟩, hk₁⟩ => ?_
  rw [hunit] at hm₁
  have hb₁ := h.keep hk₁ hm₁ rfl
  have hl₁ := hl.extend hn₁
  have hclaims : List.Forall₂ c₁.names.ClaimReads
      (l.declarations.map fun p => ⟨p.1, id, p.2.libraryLevel⟩) (u.claims st.artifact.path) := by
    refine List.forall₂_map_left_iff.2 (List.forall₂_map_right_iff.2 (List.Forall₂.flip ?_))
    exact hl₁.declarations.imp fun d x hd => ⟨hd.key, hid₁, congrArg (·.libraryLevel) hd.declaration⟩
  refine ((Store.putDeclarations_ends hm₁ hclaims).keeping
    (Store.putDeclarations_keepsParameters _)).bind fun _ c₂ ⟨⟨hm₂, hn₂⟩, hk₂⟩ => ?_
  have hb₂ := hb₁.keep hk₂ hm₂ rfl
  have hl₂ : c₂.names.BindsUnit u l := hn₂ ▸ hl₁
  have hid₂ : c₂.names.path? id = some st.artifact.path := hn₂ ▸ hid₁
  refine (writeLinks_binds hb₂ hid₂ hl₂).bind fun _ c₃ ⟨hb₃, hn₃⟩ => ?_
  have hrow : c₃.names.ArtifactReads ⟨id, l.unit.unitName, st.mtime, l.unit.checksum, now⟩
      ⟨st.artifact.path, u.unitName, st.mtime, u.checksum⟩ :=
    ⟨hn₃.path hid₂, by rw [hunit], rfl, by rw [hunit]⟩
  refine ((Store.recordArtifact_ends hb₃.toMirrors hrow).keeping
    (Store.recordArtifact_keepsParameters _)).weaken ?_
  intro _ c₄ hpost
  obtain ⟨⟨hm₄, hn₄⟩, hk₄⟩ := hpost
  refine ⟨hb₃.keep hk₄ hm₄ rfl, ?_⟩
  rw [hn₄]
  exact (hn₂ ▸ hn₁).trans hn₃

theorem writeUnits_binds (h : c.Binds L) (now : Int) {parsed : List (StaleArtifact × CompilationUnit)}
    {linked : List LinkedUnit} {keys : List EntityKey}
    (hl : List.Forall₂ (fun u l => c.names.BindsUnit (u.bound keys) (l.bound keys)) (parsed.map (·.2))
      linked) :
    Ends s (((parsed.map (·.1)).zip linked).forM fun (st, u) => writeUnit now st u) c
      (fun _ c' => c'.Binds (parsed.foldl (fun L p => L.write p.1 (p.2.bound keys)) L))
      (Refused False) := by
  induction parsed generalizing c L linked with
  | nil => exact Ends.pure h
  | cons p parsed ih =>
    obtain ⟨l, linked, hlp, hrest, rfl⟩ := List.forall₂_cons_left_iff.1 hl
    change Ends s (writeUnit now p.1 (l.bound keys) >>= fun _ =>
      (((parsed.map (·.1)).zip linked).forM fun (st, u) => writeUnit now st u)) c _ _
    refine (writeUnit_binds h now p.1 hlp).bind fun _ c₁ ⟨hb₁, hn₁⟩ => ?_
    exact ih hb₁ (hrest.imp fun _ _ hlu => hlu.extend hn₁)

theorem purge_binds {fit : Prop} (h : c.Binds L) (path : String) :
    Ends s (purge path) c (fun _ c' => c'.Binds (L.purge path)) (Refused fit) := by
  refine query_bind h.complete (refuses_of_fits (by simp)) ?_
  cases hfound : c.fileId? path with
  | none => exact Ends.pure ((h.purge_of_unrecorded hfound).symm ▸ h)
  | some id => exact Store.purgeArtifact_binds h ((h.sound.fileId?_eq_some).1 hfound)

theorem touches_binds {fit : Prop} (h : c.Binds L) (touched : List (String × Int)) :
    Ends s (touched.forM fun (path, mtime) => touch path mtime) c
      (fun _ c' => c'.Binds (touched.foldl (fun L t => L.touch t.1 t.2) L)) (Refused fit) := by
  have hkeep : Acts KeepsParameters (touched.forM fun (path, mtime) => touch path mtime) := by
    refine Acts.composes.forM (fun t => ?_) touched
    exact Acts.composes.touch (fun _ => Acts.query _ _ _) Store.touchArtifact_keepsParameters t.1 t.2
  have hparameters : (touched.foldl (fun L t => L.touch t.1 t.2) L).parameters = L.parameters :=
    Ledger.foldl_keeps (f := fun L (t : String × Int) => L.touch t.1 t.2) (g := Ledger.parameters)
      (fun _ _ => rfl) touched L
  have hmirrors : Ends s (touched.forM fun (path, mtime) => touch path mtime) c
      (fun _ c' => c'.Mirrors (touched.foldl (fun L t => L.touch t.1 t.2) L)) (Refused fit) :=
    forM_ledger Contents.Mirrors (fun t hm => touch_ends hm t.1 t.2) h.toMirrors touched
  exact (hmirrors.keeping hkeep).weaken fun _ _ hc => h.keep hc.2 hc.1 hparameters

/-- **A merge binds twice**, the batch among what it owns and what was there, and what is still open
among what is there afterwards. -/
theorem mergeBatch_binds (h : c.Binds L) (hL : ∀ k ∈ L.keys, k.name ≠ "") {b : ReadBatch}
    (hnamed : ∀ u ∈ b.units, u.Named) (touched : List (String × Int)) (now : Int) :
    Ends s (mergeBatch b touched now) c (fun _ c' => c'.Binds (L.bind b touched)) (Refused False) := by
  have hpurged : (b.attempted.foldl (fun L s => L.purge s.artifact.path) L).keys = L.keys :=
    Ledger.foldl_keeps (f := fun L (s : StaleArtifact) => L.purge s.artifact.path) (g := Ledger.keys)
      (fun _ _ => rfl) b.attempted L
  have htouched (L : Ledger) : (touched.foldl (fun L t => L.touch t.1 t.2) L).keys = L.keys :=
    Ledger.foldl_keeps (f := fun L (t : String × Int) => L.touch t.1 t.2) (g := Ledger.keys)
      (fun _ _ => rfl) touched L
  refine (forM_ledger Contents.Binds (fun st hb => purge_binds hb st.artifact.path) h b.attempted).bind
    fun _ c₁ hb₁ => ?_
  refine (touches_binds hb₁ touched).bind fun _ c₂ hb₂ => ?_
  have hkeys : b.ownedKeys ++ L.keys = (b.units.flatMap (·.owned)).map (·.key) ++
      (touched.foldl (fun L t => L.touch t.1 t.2)
        (b.attempted.foldl (fun L s => L.purge s.artifact.path) L)).keys := by
    rw [htouched, hpurged]
    rfl
  refine (linkBatch_binds hb₂ (by rwa [htouched, hpurged]) hnamed hkeys).bind
    fun linked c₃ ⟨hb₃, hl₃⟩ => ?_
  refine (writeUnits_binds hb₃ now hl₃).bind fun _ c₄ hb₄ => ?_
  refine (Store.detachUndeclared_binds hb₄).bind fun _ c₅ ⟨hb₅, hfree⟩ => ?_
  refine (Store.pruneOrphans_binds hb₅ hfree).bind fun pruned c₆ hb₆ => ?_
  have hb₆ : c₆.Binds (L.merge (b.bound (b.ownedKeys ++ L.keys)) touched) :=
    (L.merge_bound b touched _).symm ▸ hb₆
  have hL₆ : ∀ k ∈ (L.merge (b.bound (b.ownedKeys ++ L.keys)) touched).keys, k.name ≠ "" :=
    Ledger.keys_merge_named hL (by rw [ReadBatch.ownedKeys_bound]; exact ReadBatch.ownedKeys_named hnamed)
  refine (Store.relinkPending_binds hb₆ hL₆).bind fun relinked c₇ hb₇ => ?_
  split
  · refine ((Store.markIndexed_ends hb₇.toMirrors now).keeping
      (Store.markIndexed_keepsParameters now)).bind fun _ c₈ ⟨⟨hm₈, _⟩, hk₈⟩ => ?_
    exact Ends.pure (hb₇.keep hk₈ hm₈ rfl)
  · exact Ends.pure hb₇

/-- What a merge that succeeds leaves is bound. -/
theorem merge_binds (hs : s.Idle) (h : s.contents.Binds L) (hL : ∀ k ∈ L.keys, k.name ≠ "")
    {b : ReadBatch} (hnamed : ∀ u ∈ b.units, u.Named) {plan : UpdatePlan} {now : Int} {stats : UpdateStats}
    (hok : (merge plan b now s).1 = .ok stats) :
    (merge plan b now s).2.contents.Binds (L.bind b plan.touched) := by
  have hends := mergeBatch_binds (s := s) h hL hnamed plan.touched now
  unfold Ends at hends
  rw [hs.holding] at hends
  rw [merge_apply hs h.toMirrors hnamed] at hok ⊢
  rcases hr : mergeBatch b plan.touched now s with ⟨e | counts, s'⟩ <;>
    simp only [hr] at hends hok ⊢
  · cases hok
  · obtain ⟨c', rfl, hb⟩ := hends
    exact hb

end Update

/-! ## Bound histories -/

namespace History

/-- **The store of a history mirrors the bound ledger of its batches.** -/
theorem run_binds (path : String) (steps : List UpdateStep) :
    ∃ L, Ledger.Binds (run path steps).batches L ∧ (run path steps).store.contents.Binds L := by
  induction steps using List.reverseRecOn with
  | nil => exact ⟨{}, .nil, Contents.empty_binds⟩
  | append_singleton steps a ih =>
    obtain ⟨L, hL, hb⟩ := ih
    have hs := run_sound path steps
    have hstep := a.run_runs hs.idle hb.toMirrors
    change Runs _ (a.run) _ _ at hstep
    unfold Runs at hstep
    rw [run_snoc, next]
    rcases hr : a.run (run path steps).store with ⟨e | r, s'⟩ <;> simp only [hr] at hstep ⊢
    · exact ⟨L, hL, hstep.2.1.symm ▸ hb⟩
    · have hmerge := UpdateStep.merge_of_run hr
      have hbound := Update.merge_binds hs.idle hb (hL.keys_named hs.named) a.batch_named
        (congrArg Prod.fst hmerge)
      rw [hmerge] at hbound
      exact ⟨_, hL.snoc, hbound⟩

end History

end Crossref
