/-
Bound contents. Contents mirror a bound ledger, and the row of a parameter is open,
waiting for whatever is at its place, if the ledger holds no name for it. Then every
row of a parameter reads as exactly the key that the ledger holds. Detaching,
pruning and relinking are followed here: relinking binds what is still open to the
entities that are there.
-/
import Crossref.Proofs.Binding
import Crossref.Proofs.Store.Acts
import Crossref.Proofs.Store.Links

namespace Crossref

open StoreM StoreM.Ends

/-! ## Open links -/

/-- The link awaits whatever is at its place. -/
structure StoredLink.Open (l : StoredLink) : Prop where
  unlinked : l.id = none
  unnamed : l.pending.name = some ""

theorem StoredLink.Open.detach {l : StoredLink} (h : l.Open) (c : Contents) : l.detach c = l := by
  unfold StoredLink.detach
  rw [h.unlinked, Contents.orphan?_none]

/-- A link reads as the key that it shows, up to keys without a name: then it has to be open. -/
theorem Names.reads_iff_shows {n : Names} {l : StoredLink} {k : EntityKey}
    (hn : ∀ {id k}, n.key? id = some k → k.name ≠ "") :
    n.Reads l k ↔ n.Shows l k ∧ (k.name = "" → l.Open) := by
  constructor
  · intro h
    refine ⟨⟨k, h, .refl k⟩, fun hk => ?_⟩
    cases h with
    | linked hid => exact absurd hk (hn hid)
    | awaiting => exact ⟨rfl, congrArg some hk⟩
  · intro h
    obtain ⟨⟨k', hreads, hcovers⟩, hopen⟩ := h
    by_cases hk : k.name = ""
    · cases hreads with
      | linked => exact absurd (hopen hk).unlinked (by simp)
      | awaiting hfile =>
        have hname : k'.name = "" := Option.some.inj (hopen hk).unnamed
        obtain rfl := EntityKey.ext_location (hname.trans hk.symm) hcovers.1
        exact .awaiting hfile
    · exact hcovers.eq_of_named hk ▸ hreads

/-- The row is open if the fact holds no name. -/
def ParameterRow.Opens (r : ParameterRow) (f : ParameterFact) : Prop :=
  f.key.name = "" → r.parameter.Open

/-- The row reads as the fact of a bound ledger. -/
structure Names.ParameterBinds (n : Names) (r : ParameterRow) (f : ParameterFact) : Prop extends
    n.ParameterReads r f where
  opens : r.Opens f

namespace Contents

/-- The contents mirror a bound ledger. -/
structure Binds (c : Contents) (L : Ledger) : Prop extends c.Mirrors L where
  opens : List.Forall₂ ParameterRow.Opens c.parameters L.parameters

theorem empty_binds : Contents.empty.Binds {} :=
  { empty_mirrors with opens := .nil }

variable {c c' : Contents} {L L' : Ledger}

/-! ## Keys of entities -/

theorem Mirrors.keys (h : c.Mirrors L) :
    List.Forall₂ (fun e k => c.keyOf? e = some k ∧ c.names.key? e.id = some k) c.entities L.keys :=
  List.forall₂_map_right_iff.2 <| forall₂_imp_mem h.entities fun _ _ he _ hr =>
    ⟨keyOf?_eq_some.2 ⟨hr.file, hr.name, hr.line, hr.column⟩, h.key?_of_reads he hr⟩

theorem Mirrors.named (h : c.Mirrors L) (hL : ∀ k ∈ L.keys, k.name ≠ "") {id : Int} {k : EntityKey}
    (hk : c.names.key? id = some k) : k.name ≠ "" := by
  obtain ⟨e, he, rfl, -⟩ := mem_of_key? hk
  obtain ⟨k', hk', -, hid⟩ := exists_right_of_forall₂ h.keys he
  exact Option.some.inj (hk.symm.trans hid) ▸ hL k' hk'

theorem Mirrors.knows_iff_mem (h : c.Mirrors L) {k : EntityKey} : c.Knows k ↔ k ∈ L.keys := by
  rw [h.knows_iff, List.any_eq_true, Ledger.keys, List.mem_map]
  simp only [decide_eq_true_eq]

/-- A search for a place finds the entity of the first key there. -/
theorem Mirrors.find_place (h : c.Mirrors L) {place : Location} {p : EntityRow → Bool}
    (hp : ∀ e k, c.keyOf? e = some k → p e = decide (k.location = place)) :
    Option.Rel (fun e k => c.names.key? e.id = some k) (c.entities.find? p)
      (L.keys.find? (·.location = place)) := by
  have hfound := forall₂_find? h.keys fun e k hk => hp e k hk.1
  generalize c.entities.find? p = row, L.keys.find? _ = key at hfound ⊢
  cases hfound with
  | none => exact .none
  | some hk => exact .some hk.2

/-! ## Rows of parameters -/

theorem Binds.rows (h : c.Binds L) : List.Forall₂ c.names.ParameterBinds c.parameters L.parameters :=
  (forall₂_and h.parameters h.opens).imp fun _ _ hr => { hr.1 with opens := hr.2 }

theorem Binds.reads (h : c.Binds L) (hL : ∀ k ∈ L.keys, k.name ≠ "") :
    List.Forall₂ (fun r f => c.names.Reads r.parameter f.key) c.parameters L.parameters :=
  h.rows.imp fun _ _ hr => (Names.reads_iff_shows (h.toMirrors.named hL)).2 ⟨hr.parameter, hr.opens⟩

/-- What rows and facts are chosen by agrees if they read alike. -/
theorem Binds.opens_filter (h : c.Binds L) {p : ParameterRow → Bool} {q : ParameterFact → Bool}
    (hpq : ∀ r f, c.names.ParameterReads r f → p r = q f) :
    List.Forall₂ ParameterRow.Opens (c.parameters.filter p) (L.parameters.filter q) :=
  (forall₂_filter h.rows fun r f hr => hpq r f hr.toParameterReads).imp fun _ _ hr => hr.opens

theorem Binds.withoutArtifact (h : c.Binds L) {id : Int} {path : String}
    (hid : c.filePath? id = some path) : (c.withoutArtifact id).Binds (L.purge path) :=
  { h.toMirrors.withoutArtifact hid with
    opens := h.opens_filter fun _ _ hr => by simp [h.sound.file_eq_iff hr.artifact hid] }

theorem Binds.putParameter (h : c.Binds L) {r : ParameterRow} {f : ParameterFact}
    (hr : c.names.ParameterBinds r f) :
    ∃ c', c.putParameter r = .ok c' ∧ c'.names = c.names ∧ c'.Binds (L.putParameters [f]) := by
  obtain ⟨c', hc, hn, hm⟩ := h.toMirrors.putParameter hr.toParameterReads
  refine ⟨c', hc, hn, { hm with opens := ?_ }⟩
  unfold Contents.putParameter at hc
  split at hc
  · obtain rfl := Except.ok.inj hc
    refine forall₂_append_singleton (h.opens_filter fun a b hab => ?_) hr.opens
    simp [h.sound.entity_eq_iff hab.owner hr.owner, hab.ordinal, hr.ordinal]
  · cases hc

/-- Nothing was done to the parameters. -/
def KeepsParameters (c c' : Contents) : Prop :=
  c'.parameters = c.parameters

instance : IsPreorder Contents KeepsParameters where
  refl _ := rfl
  trans _ _ _ h₁ h₂ := h₂.trans h₁

theorem Binds.keep (h : c.Binds L) (hc : c.KeepsParameters c') (hm : c'.Mirrors L')
    (hL : L'.parameters = L.parameters) : c'.Binds L' :=
  { hm with opens := hc.symm ▸ hL.symm ▸ h.opens }

/-! ## Detaching and relinking -/

theorem Binds.detached (h : c.Binds L) :
    (c.detachTargets.detachScopes.detachParameters.dropOrphanParameters).Binds
      { L with parameters := L.parameters.filter fun p => L.isClaimed p.owner } := by
  have hdetached : c.detachTargets.detachScopes.detachParameters.Binds L :=
    { h.toMirrors.detached with
      opens := List.forall₂_map_left_iff.2 <| h.opens.imp fun _ _ hopen hk =>
        ((hopen hk).detach _).symm ▸ hopen hk }
  exact
    { hdetached.toMirrors.dropOrphanParameters with
      opens := hdetached.opens_filter fun _ _ hr => hdetached.toMirrors.orphan?_isNone hr.owner }

theorem accepts_place (h : c.Sound) {k : EntityKey} {file : Int} (hk : k.name = "")
    (hfile : c.filePath? file = some k.file) (e : EntityRow) (k' : EntityKey)
    (hkey : c.keyOf? e = some k') :
    (k.pendingAt file).accepts e = decide (k'.location = k.location) := by
  obtain ⟨hpath, -, hline, hcolumn⟩ := keyOf?_eq_some.1 hkey
  have hsame := h.file_eq_iff hfile hpath
  obtain ⟨name, path, line, column⟩ := k
  obtain ⟨name', path', line', column'⟩ := k'
  simp only at hk hsame hline hcolumn
  subst hk hline hcolumn
  simp only [PendingKey.accepts, EntityKey.pendingAt, EntityKey.location, Option.some.injEq, hsame,
    Location.mk.injEq, decide_true, Bool.true_or, Bool.and_true, Bool.decide_and, eq_comm,
    Bool.and_assoc]

/-- Relinking binds a link among the keys of the entities. -/
theorem Mirrors.reads_relink (h : c.Mirrors L) (hL : ∀ k ∈ L.keys, k.name ≠ "") {l : StoredLink}
    {k : EntityKey} (hl : c.names.Reads l k) : c.names.Reads (l.relink c) (k.among L.keys) := by
  by_cases hk : k.name = ""
  · cases hl with
    | linked hid => exact absurd hk (h.named hL hid)
    | @awaiting file _ hfile =>
      have hfound := h.find_place (accepts_place h.sound hk hfile)
      unfold StoredLink.relink StoredLink.awaited?
      simp only [Option.isSome_none, Bool.false_eq_true, if_false]
      generalize hrow : c.entities.find? (k.pendingAt file).accepts = row at hfound ⊢
      generalize hkey : L.keys.find? (·.location = k.location) = key at hfound
      cases hfound with
      | none =>
        rw [EntityKey.among_of_none hkey]
        exact .awaiting hfile
      | some hid =>
        rw [EntityKey.among_of_some hk hkey]
        exact .linked hid
  · rw [EntityKey.among_of_named hk]
    have hshows := h.sound.shows_relink ⟨k, hl, .refl k⟩
    exact (Names.reads_iff_shows (h.named hL)).2 ⟨hshows, fun hk' => absurd hk' hk⟩

theorem Binds.relinked (h : c.Binds L) (hL : ∀ k ∈ L.keys, k.name ≠ "") :
    (c.relinkTargets.relinkScopes.relinkParameters).Binds L.bindPending := by
  have hm : c.relinkTargets.relinkScopes.Mirrors L :=
    (h.toMirrors.mapTargets h.sound.shows_relink).mapScopes fun hl =>
      Sound.showsScope_relink (c := c.relinkTargets) { h.sound with } hl
  have hreads : List.Forall₂ (fun r f => c.names.ParameterReads r f ∧ c.names.Reads r.parameter f.key)
      c.parameters L.parameters :=
    forall₂_and h.parameters (h.reads hL)
  have hrelinked : List.Forall₂ c.names.ParameterBinds
      (c.relinkTargets.relinkScopes.relinkParameters).parameters L.bindPending.parameters := by
    refine List.forall₂_map_left_iff.2 (List.forall₂_map_right_iff.2 (hreads.imp fun r f hr => ?_))
    have hbound := (Names.reads_iff_shows (hm.named hL)).1 (hm.reads_relink hL hr.2)
    exact { hr.1 with parameter := hbound.1, opens := hbound.2 }
  exact
    { hm with
      sound := { hm.sound with }
      parameters := hrelinked.imp fun _ _ hr => hr.toParameterReads
      opens := hrelinked.imp fun _ _ hr => hr.opens }

end Contents

/-! ## The statements -/

open Contents

theorem StoreM.Ends.keeping {s : Store} {c : Contents} {α : Type} {x : StoreM α}
    {ok : α → Contents → Prop} {bad : Failure → Contents → Prop} (h : Ends s x c ok bad)
    (hx : Acts KeepsParameters x) : Ends s x c (fun a c' => ok a c' ∧ c.KeepsParameters c') bad :=
  h.and (Ends.of_acts hx s c)

namespace Store

variable {s : Store} {c : Contents} {L : Ledger} {fit : Prop}

theorem ensureFile_keepsParameters (path : String) : Acts KeepsParameters (ensureFile path) := by
  refine (Acts.execute (R := KeepsParameters) fun c c' hc => ?_).bind fun _ => Acts.query _ _ _
  rw [ensureFile_ok hc]
  unfold ensuredFile
  split <;> rfl

theorem putFile_keepsParameters (new : FileRecord) : Acts KeepsParameters (putFile new) := by
  refine (Acts.execute (R := KeepsParameters) fun c c' hc => ?_).bind fun _ => Acts.query _ _ _
  rw [mergeFile_ok hc]
  unfold mergedFile
  split <;> rfl

theorem stampFile_keepsParameters (path stamp checksum : String) :
    Acts KeepsParameters (stampFile path stamp checksum) := by
  refine (ensureFile_keepsParameters path).bind fun id => Acts.bind ?_ fun _ => Acts.pure id
  exact Acts.execute_ok fun _ => rfl

theorem putEntity_keepsParameters (name kind : String) (fileId line column : Int) :
    Acts KeepsParameters (putEntity name kind fileId line column) := by
  refine (Acts.execute (R := KeepsParameters) fun c c' hc => ?_).bind fun _ => Acts.query _ _ _
  replace hc := (numbered_ok hc).2
  unfold mergedEntity at hc
  split at hc
  · exact Except.ok.inj hc ▸ rfl
  · split at hc
    · exact Except.ok.inj hc ▸ rfl
    · cases hc

/-- A guarded change that keeps the parameters. -/
theorem keepsParameters_guarded {c c' d : Contents} {b : Bool} {fault : RowFault}
    (h : (if b then .ok d else .error fault : Except RowFault Contents) = .ok c')
    (hd : c.KeepsParameters d) : c.KeepsParameters c' := by
  split at h
  · exact Except.ok.inj h ▸ hd
  · cases h

theorem recordArtifact_keepsParameters (new : ArtifactRow) :
    Acts KeepsParameters (recordArtifact new) := by
  refine Acts.execute fun c c' hc => ?_
  unfold Contents.recordArtifact at hc
  split at hc
  · exact Except.ok.inj hc ▸ rfl
  · exact keepsParameters_guarded hc rfl

theorem touchArtifact_keepsParameters (fileId mtime : Int) :
    Acts KeepsParameters (touchArtifact fileId mtime) :=
  Acts.execute_ok fun _ => rfl

theorem replaceDependencies_keepsParameters (artifactId : Int) (new : List DependencyRow) :
    Acts KeepsParameters (replaceDependencies artifactId new) := by
  refine Acts.bind ?_ fun _ => Acts.executeAll fun _ _ _ hc => keepsParameters_guarded hc rfl
  exact Acts.execute_ok fun _ => rfl

theorem putDeclarations_keepsParameters (new : List DeclarationRow) :
    Acts KeepsParameters (putDeclarations new) :=
  Acts.executeAll fun _ _ _ hc => keepsParameters_guarded hc rfl

theorem addReferences_keepsParameters (new : List ReferenceRecord) :
    Acts KeepsParameters (addReferences new) :=
  Acts.executeAll fun _ _ _ hc => keepsParameters_guarded (numbered_ok hc).2 rfl

theorem pruneOrphans_keepsParameters : Acts KeepsParameters pruneOrphans :=
  Acts.pruneOrphans fun _ _ hc => keepsParameters_guarded hc rfl

theorem markIndexed_keepsParameters (now : Int) : Acts KeepsParameters (markIndexed now) :=
  Acts.execute_ok fun _ => rfl

theorem purgeArtifact_binds (h : c.Binds L) {id : Int} {path : String}
    (hid : c.filePath? id = some path) :
    Ends s (purgeArtifact id) c (fun _ c' => c'.Binds (L.purge path)) (Refused fit) :=
  (purgeArtifact_leaves h.sound hid).weaken fun _ _ hc => hc ▸ h.withoutArtifact hid

/-- Rows that are put together for facts are put in their slots. -/
theorem putParameters_binds (h : c.Binds L) {rows : List ParameterRow} {facts : List ParameterFact}
    (hr : List.Forall₂ c.names.ParameterBinds rows facts) :
    Ends s (putParameters rows) c (fun _ c' => c'.Binds (L.putParameters facts) ∧ c'.names = c.names)
      (Refused False) := by
  refine (writeAll_ends Binds Ledger.putParameters (fun _ => True) (fun h => h.toMirrors.complete)
    (fun _ => rfl) (fun L fs f => ?_) ?_ h hr).weaken fun _ _ hpost => ⟨hpost.1, hpost.2.1⟩
  · simp only [Ledger.putParameters, putAll_append]
  · intro c L r f hc _ hrf
    obtain ⟨c', hput, hn, hc'⟩ := hc.putParameter hrf
    exact ⟨refuses_of_fits False.elim, .inl ⟨c', hput, hn, fun _ => ⟨hc', trivial⟩⟩⟩

theorem detachUndeclared_binds (h : c.Binds L) :
    Ends s detachUndeclared c
      (fun _ c' =>
        c'.Binds { L with parameters := L.parameters.filter fun p => L.isClaimed p.owner } ∧
          c'.orphansFree = true)
      (Refused fit) :=
  (detachUndeclared_leaves h.sound.toComplete).weaken fun _ _ hc =>
    hc ▸ ⟨h.detached, Contents.orphansFree_detached c⟩

theorem pruneOrphans_binds (h : c.Binds L) (hfree : c.orphansFree = true) :
    Ends s pruneOrphans c
      (fun _ c' => c'.Binds { L with entities := L.entities.filter fun e => L.isClaimed e.key })
      (Refused fit) :=
  ((pruneOrphans_ends h.toMirrors hfree).keeping pruneOrphans_keepsParameters).weaken
    fun _ _ hc => h.keep hc.2 hc.1.1 rfl

theorem relinkPending_binds (h : c.Binds L) (hL : ∀ k ∈ L.keys, k.name ≠ "") :
    Ends s relinkPending c (fun _ c' => c'.Binds L.bindPending) (Refused fit) :=
  (relinkPending_leaves h.sound.toComplete).weaken fun _ _ hc => hc ▸ h.relinked hL

end Store

end Crossref
