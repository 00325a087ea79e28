/-
Writing a linked unit. The rows of the unit read as what the unit says, whatever
its links were made to, so writing it to a store that mirrors a ledger is writing
it to the ledger.
-/
import Crossref.Proofs.Update.Linking

namespace Crossref

open StoreM

variable {s : Store} {c : Contents} {L : Ledger} {fit : Prop}

theorem forall₂_trans {α β γ : Type} {R : α → β → Prop} {S : β → γ → Prop} {T : α → γ → Prop}
    {l : List α} {m : List β} {r : List γ} (h₁ : List.Forall₂ R l m) (h₂ : List.Forall₂ S m r)
    (hT : ∀ a b c, R a b → S b c → T a c) : List.Forall₂ T l r := by
  induction h₁ generalizing r with
  | nil =>
    rw [List.forall₂_nil_left_iff.1 h₂]
    exact .nil
  | cons hab _ ih =>
    obtain ⟨_, _, hbc, hrest, rfl⟩ := List.forall₂_cons_left_iff.1 h₂
    exact .cons (hT _ _ _ hab hbc) (ih hrest)

namespace Update

/-! ## Rows -/

/-- The ids that were asked for read as the paths they were asked for. -/
def FileIds.Reads (n : Names) (ids : FileIds) : Prop :=
  ∀ e ∈ ids, n.path? e.2 = some e.1

/-- While the rows of a unit are put together, files are recorded and nothing else changes. -/
structure Collects (L : Ledger) (n : Names) (ids : FileIds) (c : Contents) : Prop where
  mirrors : c.Mirrors L
  extend : n.Extends c.names
  files : FileIds.Reads c.names ids

theorem Collects.start (h : c.Mirrors L) : Collects L c.names [] c :=
  ⟨h, .refl _, by simp [FileIds.Reads]⟩

theorem Collects.trans {n : Names} {ids ids' : FileIds} {c c' : Contents} (h : Collects L n ids c)
    (h' : Collects L c.names ids' c') : Collects L n ids' c' :=
  { h' with extend := h.extend.trans h'.extend }

theorem fileId_of_known {path : String} {ids : FileIds} {id : Int}
    (hlookup : ids.lookup path = some id) : fileId path ids = pure (id, ids) := by
  unfold fileId
  simp only [get_bind_apply, hlookup]
  rfl

theorem fileId_of_new {path : String} {ids : FileIds} (hlookup : ids.lookup path = none) :
    fileId path ids = Store.ensureFile path >>= fun id => pure (id, ids ++ [(path, id)]) := by
  unfold fileId
  simp only [get_bind_apply, hlookup]
  exact lift_bind_apply _ _ _

theorem fileId_ends {n : Names} {ids : FileIds} (h : Collects L n ids c) (path : String) :
    Ends s (fileId path ids) c
      (fun a c' => Collects L c.names a.2 c' ∧ c'.names.path? a.1 = some path) (Refused fit) := by
  cases hlookup : ids.lookup path with
  | some id =>
    rw [fileId_of_known hlookup]
    obtain ⟨before, after, hsplit, -⟩ := List.lookup_eq_some_iff.1 hlookup
    exact Ends.pure ⟨⟨h.mirrors, .refl _, h.files⟩, h.files (path, id) (by simp [hsplit])⟩
  | none =>
    rw [fileId_of_new hlookup]
    refine (Store.ensureFile_ends h.mirrors path).bind fun id c' hc' => ?_
    refine Ends.pure ⟨⟨hc'.mirrors, hc'.extend, fun e he => ?_⟩, hc'.path⟩
    rcases List.mem_append.1 he with he | he
    · exact hc'.extend.path (h.files e he)
    · rw [List.mem_singleton.1 he]
      exact hc'.path

theorem storedLink_ends {n : Names} {ids : FileIds} (h : Collects L n ids c) (l : Link) :
    Ends s (storedLink l ids) c
      (fun a c' => Collects L c.names a.2 c' ∧ ∀ key, n.LinksKey key l → c'.names.Shows a.1 key)
      (Refused fit) := by
  cases l with
  | linked id =>
    refine Ends.pure ⟨⟨h.mirrors, .refl _, h.files⟩, fun key hl => ?_⟩
    obtain ⟨k, hid, hk⟩ := hl.linked id rfl
    exact ⟨k, .linked (h.extend.key hid), hk⟩
  | pending k =>
    refine Ends.bind_state (fileId_ends h k.file) ?_
    rintro ⟨file, ids'⟩ c' ⟨hc', hfile⟩
    refine Ends.pure ⟨hc', fun key hl => ?_⟩
    obtain rfl := hl.pending k rfl
    exact ⟨k, .awaiting hfile, .refl k⟩

theorem showsScope_of_rel {n n' : Names} {k : Option EntityKey} {l : Option Link}
    {row : Option StoredLink} (hl : Option.Rel n.LinksKey k l)
    (hrow : Option.Rel (fun l row => ∀ key, n.LinksKey key l → n'.Shows row key) l row) :
    n'.ShowsScope (row.getD {}) k := by
  cases hl with
  | none =>
    cases hrow
    rfl
  | some hk =>
    cases hrow with
    | some hshows => exact hshows _ hk

theorem referenceRow_ends {n : Names} {ids : FileIds} (h : Collects L n ids c) {artifactId : Int}
    {path : String} (hid : n.path? artifactId = some path) (l : LinkedReference) :
    Ends s (referenceRow artifactId l ids) c
      (fun a c' => Collects L c.names a.2 c' ∧
        ∀ r, n.LinksReference r l → c'.names.ReferenceReads a.1 (r.fact path))
      (Refused fit) := by
  refine Ends.bind_state (fileId_ends h l.location.file) ?_
  rintro ⟨file, ids₁⟩ c₁ ⟨h₁, hfile⟩
  refine Ends.bind_state (storedLink_ends (h.trans h₁) l.target) ?_
  rintro ⟨target, ids₂⟩ c₂ ⟨h₂, htarget⟩
  let I (ids : FileIds) (c' : Contents) : Prop := Collects L c₂.names ids c'
  let R (c' : Contents) (l : Link) (row : StoredLink) : Prop :=
    ∀ key, n.LinksKey key l → c'.names.Shows row key
  have hstart : I ids₂ c₂ := ⟨h₂.mirrors, .refl _, h₂.files⟩
  refine Ends.bind_state
    (Ends.option_state I R hstart fun k _ => storedLink_ends ((h.trans h₁).trans h₂) k) ?_
  rintro ⟨scope, ids₃⟩ c₃ ⟨h₃, hscope⟩
  refine Ends.pure ⟨(h₁.trans h₂).trans h₃, fun r hr => ?_⟩
  exact
    { target := (htarget r.target hr.target).extend h₃.extend
      artifact := (((h.trans h₁).trans h₂).trans h₃).extend.path hid
      file := by
        have : l.location.file = r.location.file := by rw [hr.location]
        exact this ▸ (h₂.trans h₃).extend.path hfile
      line := by rw [hr.location]; rfl
      column := by rw [hr.location]; rfl
      kind := by rw [hr.kind]; rfl
      scope := showsScope_of_rel hr.scope hscope }

theorem parameterRow_ends {n : Names} {ids : FileIds} (h : Collects L n ids c) {artifactId : Int}
    {path : String} (hid : n.path? artifactId = some path) (l : LinkedParameter) :
    Ends s (parameterRow artifactId l ids) c
      (fun a c' => Collects L c.names a.2 c' ∧
        ∀ p, n.LinksParameter p l → c'.names.ParameterReads a.1 (p.fact path))
      (Refused fit) := by
  refine Ends.bind_state (storedLink_ends h l.parameter) ?_
  rintro ⟨parameter, ids₁⟩ c₁ ⟨h₁, hparameter⟩
  refine Ends.pure ⟨h₁, fun p hp => ?_⟩
  exact
    { owner := (h.trans h₁).extend.key hp.owner
      ordinal := by rw [hp.ordinal]; rfl
      parameter := hparameter p.key hp.parameter
      mode := by rw [hp.mode]; rfl
      artifact := (h.trans h₁).extend.path hid }

/-- Rows that are put together one by one read as the facts they were made for. -/
theorem collectRows_ends {α β ρ φ : Type} {row : β → StateT FileIds StoreM ρ} {Links : α → β → Prop}
    (Reads : Names → ρ → φ → Prop) (fact : α → φ) {said : List α} {linked : List β} {n : Names}
    {ids : FileIds} (h : Collects L n ids c)
    (hextend : ∀ {n n' : Names} {r f}, n.Extends n' → Reads n r f → Reads n' r f)
    (hrow : ∀ {ids c}, Collects L n ids c → ∀ b,
      Ends s (row b ids) c
      (fun r c' => Collects L c.names r.2 c' ∧ ∀ a, Links a b → Reads c'.names r.1 (fact a))
      (Refused fit))
    (hlinked : List.Forall₂ Links said linked) :
    Ends s (linked.mapM row ids) c
      (fun rows c' => Collects L n rows.2 c' ∧ List.Forall₂ (Reads c'.names) rows.1 (said.map fact))
      (Refused fit) := by
  let I (_ : List β) (ids : FileIds) (c : Contents) : Prop := Collects L n ids c
  let R (c : Contents) (b : β) (r : ρ) : Prop := ∀ a, Links a b → Reads c.names r (fact a)
  refine (Ends.mapM_state (fun c c' => c.names.Extends c'.names) I R (fun _ => .refl _)
    Names.Extends.trans (fun hn hr a ha => hextend hn (hr a ha)) ?_ h).weaken ?_
  · intro b _ ids c hI
    refine (hrow hI b).weaken ?_
    rintro ⟨r, ids'⟩ c' ⟨hc', hr⟩
    exact ⟨Collects.trans hI hc', hc'.extend, hr⟩
  · rintro ⟨rows, ids'⟩ c' ⟨hI, -, hrows⟩
    refine ⟨hI, List.forall₂_map_right_iff.2 (List.Forall₂.flip ?_)⟩
    exact forall₂_trans hlinked hrows fun a b r hab hbr => hbr a hab

/-! ## Files and dependencies -/

theorem recordSources_ends (h : c.Mirrors L) (u : CompilationUnit) (runtime : Bool)
    (paths : List String) :
    Ends s (paths.forM fun path => do let _ ← Store.putFile (sourceRecord u runtime path)) c
      (fun _ c' => c'.Mirrors L ∧ c.names.Extends c'.names) (Refused fit) := by
  let I (_ : List String) (c' : Contents) : Prop := c'.Mirrors L ∧ c.names.Extends c'.names
  refine Ends.forM I (fun path _ c₁ ⟨hm, hn⟩ => ?_) ⟨h, .refl _⟩
  refine (Store.putFile_ends hm _).bind fun _ c₂ h₂ => ?_
  exact Ends.pure ⟨h₂.mirrors, hn.trans h₂.extend⟩

theorem dependencyRows_ends (h : c.Mirrors L) {artifactId : Int} {path : String}
    (hid : c.names.path? artifactId = some path) (dependencies : List Dependency) :
    Ends s (dependencies.mapM fun d => do
        let file ← Store.stampFile d.path d.stamp d.checksum
        pure (⟨artifactId, file, d.stamp, d.checksum⟩ : DependencyRow)) c
      (fun rows c' => c'.Mirrors L ∧ c.names.Extends c'.names ∧
        List.Forall₂ c'.names.DependencyReads rows (dependencies.map (·.fact path)))
      (Refused fit) := by
  let I (_ : List Dependency) (c' : Contents) : Prop := c'.Mirrors L ∧ c.names.Extends c'.names
  let R (c' : Contents) (d : Dependency) (row : DependencyRow) : Prop :=
    c'.names.DependencyReads row (d.fact path)
  refine (Ends.mapM (fun c c' => c.names.Extends c'.names) I R (fun _ => .refl _)
    Names.Extends.trans (fun hn hr => Names.DependencyReads.extend hn hr) ?_ ⟨h, .refl _⟩).weaken ?_
  · intro d _ c₁ hpost
    obtain ⟨hm, hn⟩ := hpost
    refine (Store.stampFile_ends hm d.path d.stamp d.checksum).bind fun file c₂ h₂ => ?_
    have hn₂ := hn.trans h₂.extend
    exact Ends.pure ⟨⟨h₂.mirrors, hn₂⟩, h₂.extend, hn₂.path hid, h₂.path, rfl, rfl⟩
  · intro rows c' hboth
    obtain ⟨⟨hm, hn⟩, -, hrows⟩ := hboth
    exact ⟨hm, hn, List.forall₂_map_right_iff.2 (List.Forall₂.flip hrows)⟩

theorem writeFiles_ends (h : c.Mirrors L) (a : ArtifactFile) (u : CompilationUnit) :
    Ends s (writeFiles a u) c
      (fun id c' => c'.Mirrors (L.replaceDependencies a.path (u.dependencyFacts a.path)) ∧
        c.names.Extends c'.names ∧ c'.names.path? id = some a.path)
      (Refused fit) := by
  refine (Store.putFile_ends h _).bind fun id c₁ h₁ => ?_
  refine (recordSources_ends h₁.mirrors u a.runtime u.sourceFiles).bind fun _ c₂ ⟨hm₂, hn₂⟩ => ?_
  have hid₂ := hn₂.path h₁.path
  refine (dependencyRows_ends hm₂ hid₂ u.dependencies).bind fun rows c₃ ⟨hm₃, hn₃, hrows⟩ => ?_
  have hid₃ := hn₃.path hid₂
  refine (Store.replaceDependencies_ends hm₃ hid₃ hrows).bind fun _ c₄ ⟨hm₄, hn₄⟩ => ?_
  refine Ends.pure ⟨hm₄, ?_, ?_⟩
  · rw [hn₄]
    exact (h₁.extend.trans hn₂).trans hn₃
  · rw [hn₄]
    exact hid₃

/-! ## Units -/

theorem writeReferences_ends {n : Names} {ids : FileIds} (h : Collects L n ids c) {artifactId : Int}
    {path : String} (hid : n.path? artifactId = some path) {u : CompilationUnit} {l : LinkedUnit}
    (hl : n.LinksUnit u l) (hfit : fit → u.Fits) :
    Ends s (writeReferences artifactId l ids) c
      (fun a c' => Collects (L.addReferences (u.referenceFacts path)) n a.2 c' ∧
        ∀ r ∈ u.references, r.location.Fits)
      (Refused fit) := by
  refine Ends.bind_state (collectRows_ends Names.ReferenceReads (·.fact path) h
    (fun hn hr => Names.ReferenceReads.extend hn hr)
    (fun h' b => referenceRow_ends h' hid b) hl.references) ?_
  rintro ⟨rows, ids'⟩ c₁ ⟨h₁, hrows⟩
  refine (Ends.lift_state (Store.addReferences_ends h₁.mirrors hrows fun hf f hmem => ?_)).weaken ?_
  · obtain ⟨r, hr, rfl⟩ := List.mem_map.1 hmem
    exact ⟨(hfit hf).locations r hr, (hfit hf).targets r hr, (hfit hf).scopes r hr⟩
  · rintro ⟨_, _⟩ c₂ ⟨⟨hm, hn, hfits⟩, rfl⟩
    exact ⟨⟨hm, hn ▸ h₁.extend, hn ▸ h₁.files⟩,
      fun r hr => hfits (r.fact path) (List.mem_map_of_mem hr)⟩

theorem writeParameters_ends {n : Names} {ids : FileIds} (h : Collects L n ids c) {artifactId : Int}
    {path : String} (hid : n.path? artifactId = some path) {u : CompilationUnit} {l : LinkedUnit}
    (hl : n.LinksUnit u l) (hfit : fit → u.Fits) :
    Ends s (writeParameters artifactId l ids) c
      (fun a c' => Collects (L.putParameters (u.parameterFacts path)) n a.2 c' ∧
        ∀ p ∈ u.ownParameters, fitsWord p.ordinal = true)
      (Refused fit) := by
  refine Ends.bind_state (collectRows_ends Names.ParameterReads (·.fact path) h
    (fun hn hr => Names.ParameterReads.extend hn hr)
    (fun h' b => parameterRow_ends h' hid b) hl.parameters) ?_
  rintro ⟨rows, ids'⟩ c₁ ⟨h₁, hrows⟩
  refine (Ends.lift_state (Store.putParameters_ends h₁.mirrors hrows fun hf f hmem => ?_)).weaken ?_
  · obtain ⟨p, hp, rfl⟩ := List.mem_map.1 hmem
    exact ⟨(hfit hf).ordinals p hp, (hfit hf).parameters p hp⟩
  · rintro ⟨_, _⟩ c₂ ⟨⟨hm, hn, hfits⟩, rfl⟩
    exact ⟨⟨hm, hn ▸ h₁.extend, hn ▸ h₁.files⟩,
      fun p hp => hfits (p.fact path) (List.mem_map_of_mem hp)⟩

theorem writeLinks_ends (h : c.Mirrors L) {artifactId : Int} {path : String}
    (hid : c.names.path? artifactId = some path) {u : CompilationUnit} {l : LinkedUnit}
    (hl : c.names.LinksUnit u l) (hfit : fit → u.Fits) :
    Ends s (StateT.run' (do writeReferences artifactId l; writeParameters artifactId l) []) c
      (fun _ c' =>
        c'.Mirrors ((L.addReferences (u.referenceFacts path)).putParameters (u.parameterFacts path)) ∧
        c.names.Extends c'.names ∧ (∀ r ∈ u.references, r.location.Fits) ∧
        ∀ p ∈ u.ownParameters, fitsWord p.ordinal = true)
      (Refused fit) := by
  let ok (a : PUnit × FileIds) (c' : Contents) : Prop :=
    Collects ((L.addReferences (u.referenceFacts path)).putParameters (u.parameterFacts path))
      c.names a.2 c' ∧
      (∀ r ∈ u.references, r.location.Fits) ∧ ∀ p ∈ u.ownParameters, fitsWord p.ordinal = true
  have hboth : Ends s
      ((do writeReferences artifactId l; writeParameters artifactId l : StateT FileIds StoreM PUnit) [])
      c ok (Refused fit) := by
    refine Ends.bind_state (writeReferences_ends (.start h) hid hl hfit) fun a c₁ ⟨h₁, hlocations⟩ => ?_
    refine (writeParameters_ends h₁ hid hl hfit).weaken fun b c₂ ⟨h₂, hordinals⟩ => ?_
    exact ⟨h₂, hlocations, hordinals⟩
  refine Ends.bind hboth fun a c' ⟨hc', hfits⟩ => Ends.pure ⟨hc'.mirrors, hc'.extend, hfits⟩

/-- **Writing a linked unit writes its facts.** -/
theorem writeUnit_ends (h : c.Mirrors L) (now : Int) (st : StaleArtifact) {u : CompilationUnit} {l : LinkedUnit}
    (hl : c.names.LinksUnit u l) (hfit : fit → u.Fits) :
    Ends s (writeUnit now st l) c
      (fun _ c' => c'.Mirrors (L.write st u) ∧ c.names.Extends c'.names ∧
        (∀ r ∈ u.references, r.location.Fits) ∧ ∀ p ∈ u.ownParameters, fitsWord p.ordinal = true)
      (Refused fit) := by
  have hunit := hl.unit
  refine (writeFiles_ends h st.artifact l.unit).bind fun id c₁ ⟨hm₁, hn₁, hid₁⟩ => ?_
  rw [hunit] at hm₁
  have hl₁ := hl.extend hn₁
  have hclaims : List.Forall₂ c₁.names.ClaimReads
      (l.declarations.map fun p => ⟨p.1, id, p.2.libraryLevel⟩) (u.claims st.artifact.path) := by
    refine List.forall₂_map_left_iff.2 (List.forall₂_map_right_iff.2 (List.Forall₂.flip ?_))
    exact hl₁.declarations.imp fun d x hd => ⟨hd.key, hid₁, congrArg (·.libraryLevel) hd.declaration⟩
  refine (Store.putDeclarations_ends hm₁ hclaims).bind fun _ c₂ ⟨hm₂, hn₂⟩ => ?_
  have hl₂ : c₂.names.LinksUnit u l := hn₂ ▸ hl₁
  have hid₂ : c₂.names.path? id = some st.artifact.path := hn₂ ▸ hid₁
  refine (writeLinks_ends hm₂ hid₂ hl₂ hfit).bind fun _ c₃ ⟨hm₃, hn₃, hfits⟩ => ?_
  have hrow : c₃.names.ArtifactReads ⟨id, l.unit.unitName, st.mtime, l.unit.checksum, now⟩
      ⟨st.artifact.path, u.unitName, st.mtime, u.checksum⟩ :=
    ⟨hn₃.path hid₂, by rw [hunit], rfl, by rw [hunit]⟩
  refine (Store.recordArtifact_ends hm₃ hrow).weaken ?_
  intro _ c₄ hpost
  obtain ⟨hm₄, hn₄⟩ := hpost
  refine ⟨hm₄, ?_, hfits⟩
  rw [hn₄]
  exact (hn₂ ▸ hn₁).trans hn₃

end Update

end Crossref
