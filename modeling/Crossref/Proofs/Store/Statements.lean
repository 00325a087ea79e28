/-
What the statements of a store do, as seen in the ledger. Each one either
succeeds, and then the contents mirror the changed ledger, or it is refused
(`Refused`): because a number that was handed in does not fit into a word, or
because there is no id left. Ids always fit.
-/
import Crossref.Proofs.Store.Rows
import Crossref.Proofs.Text.Decimal
import Crossref.Store.Write

namespace Crossref

/-- One of the numbers that were handed in did not fit, or there was no id left. -/
def Refused (fit : Prop) (e : Failure) (_ : Contents) : Prop :=
  e = .integerRange ∧ ¬fit ∨ e = .row .full

def Location.Fits (l : Location) : Prop :=
  fitsWord l.line = true ∧ fitsWord l.column = true

instance (l : Location) : Decidable l.Fits :=
  inferInstanceAs (Decidable (_ ∧ _))

theorem EntityKey.Covers.fits {k k' : EntityKey} (h : k.Covers k') (hk : k.location.Fits) :
    k'.location.Fits :=
  h.1 ▸ hk

open StoreM StoreM.Ends Contents

variable {s : Store} {c : Contents} {L : Ledger} {fit : Prop}

theorem refuses_of_fits {numbers : List Int} (h : fit → ∀ n ∈ numbers, fitsWord n = true) :
    Refuses numbers (Refused fit) c := by
  intro hw
  refine .inl ⟨rfl, fun hf => ?_⟩
  rw [List.all_eq_true.2 (h hf)] at hw
  cases hw

theorem Contents.Sound.refuses_file (h : c.Sound) {id : Int} {path : String}
    (hid : c.filePath? id = some path) : Refuses [id] (Refused fit) c :=
  refuses_of_fits fun _ n hn => by
    rw [List.mem_singleton.1 hn]
    exact h.fits_file hid

/-- An insertion gives what is inserted. -/
theorem gives_numbered {change : Contents → Except RowFault Contents} {last : Int}
    {inserted : Except RowFault Contents} {P : Contents → Prop} (hchange : change c = numbered last inserted)
    (h : last < largestId → ∃ c', inserted = .ok c' ∧ P c') : Gives change P (Refused fit) c := by
  unfold Gives
  rw [hchange, numbered]
  split
  next hroom => exact .inl (h hroom)
  next => exact .inr ⟨rfl, .inr rfl⟩

theorem Contents.Mirrors.complete (h : c.Mirrors L) : c.Complete :=
  h.sound.toComplete

/-- The id of a file was asked for, and the file is recorded if it was not. -/
structure Contents.Files (c : Contents) (L : Ledger) (path : String) (id : Int)
    (c' : Contents) : Prop where
  mirrors : c'.Mirrors L
  extend : c.names.Extends c'.names
  path : c'.filePath? id = some path

namespace Store

/-! ## Files -/

theorem fileIdOrZero_ends (h : c.Mirrors L) {path : String} (hrec : ∃ id, c.filePath? id = some path) :
    Ends s (fileIdOrZero path) c (c.Files L path) (Refused fit) := by
  refine (query h.sound.toComplete (refuses_of_fits (by simp))).weaken ?_
  intro _ _ hpost
  obtain ⟨rfl, rfl, -⟩ := hpost
  obtain ⟨id, hid⟩ := hrec
  rw [(h.sound.fileId?_eq_some).2 hid, Option.getD_some]
  exact ⟨h, .refl _, hid⟩

theorem recordFile_ends (h : c.Mirrors L) {path : String} {change : Contents → Except RowFault Contents}
    (hrec : Gives change (c.Records · path) (Refused fit) c) :
    Ends s (do execute [.files] [] [] change; fileIdOrZero path) c (c.Files L path) (Refused fit) := by
  refine (execute h.sound.toComplete (refuses_of_fits (by simp)) hrec).bind fun _ c₁ ⟨hrec, _⟩ => ?_
  refine (fileIdOrZero_ends (hrec.mirrors h) hrec.recorded).weaken fun id c' hc => ?_
  exact ⟨hc.mirrors, hrec.extend.trans hc.extend, hc.path⟩

theorem putFile_ends (h : c.Mirrors L) (new : FileRecord) :
    Ends s (putFile new) c (c.Files L new.path) (Refused fit) :=
  recordFile_ends h (gives_numbered rfl fun hroom => ⟨_, rfl, h.sound.mergedFile_records hroom new⟩)

theorem ensureFile_ends (h : c.Mirrors L) (path : String) :
    Ends s (ensureFile path) c (c.Files L path) (Refused fit) :=
  recordFile_ends h (gives_numbered rfl fun hroom => ⟨_, rfl, h.sound.ensuredFile_records hroom path⟩)

theorem stampFile_ends (h : c.Mirrors L) (path stamp checksum : String) :
    Ends s (stampFile path stamp checksum) c (c.Files L path) (Refused fit) := by
  refine (ensureFile_ends h path).bind fun id c₁ h₁ => ?_
  have hrec := h₁.mirrors.sound.stampFile_records id stamp checksum ⟨id, h₁.path⟩
  refine execute_bind h₁.mirrors.sound.toComplete (h₁.mirrors.sound.refuses_file h₁.path) ?_
  exact Ends.pure ⟨hrec.mirrors h₁.mirrors, h₁.extend.trans hrec.extend, hrec.extend.path h₁.path⟩

/-! ## Artifacts -/

theorem recordArtifact_ends (h : c.Mirrors L) {r : ArtifactRow} {f : ArtifactFact}
    (hr : c.names.ArtifactReads r f) :
    Ends s (recordArtifact r) c (fun _ c' => c'.Mirrors (L.recordArtifact f) ∧ c'.names = c.names)
      (Refused fit) := by
  obtain ⟨c', hc, hn, hm⟩ := h.recordArtifact hr
  exact (execute h.sound.toComplete (h.sound.refuses_file hr.path) (.inl ⟨c', hc, hm, hn⟩)).weaken
    fun _ _ hpost => hpost.1

theorem touchArtifact_ends (h : c.Mirrors L) {id : Int} {path : String}
    (hid : c.filePath? id = some path) (mtime : Int) :
    Ends s (touchArtifact id mtime) c (fun _ c' => c'.Mirrors (L.touch path mtime)) (Refused fit) := by
  refine (execute_ok h.sound.toComplete (h.sound.refuses_file hid)).weaken ?_
  intro _ _ hpost
  obtain ⟨rfl, -⟩ := hpost
  exact h.touchArtifact hid mtime

theorem purgeArtifact_leaves (h : c.Sound) {id : Int} {path : String} (hid : c.filePath? id = some path) :
    Ends s (purgeArtifact id) c (fun _ c' => c' = c.withoutArtifact id) (Refused fit) := by
  have hrefuses : Refuses [id] (Refused fit) c := h.refuses_file hid
  refine execute_bind h.toComplete hrefuses ?_
  refine execute_bind ⟨h.has⟩ hrefuses ?_
  refine execute_bind ⟨h.has⟩ hrefuses ?_
  refine execute_bind ⟨h.has⟩ hrefuses ?_
  exact Ends.weaken (execute_ok ⟨h.has⟩ hrefuses) fun _ _ hpost => hpost.1

theorem purgeArtifact_ends (h : c.Mirrors L) {id : Int} {path : String}
    (hid : c.filePath? id = some path) :
    Ends s (purgeArtifact id) c (fun _ c' => c'.Mirrors (L.purge path)) (Refused fit) :=
  (purgeArtifact_leaves h.sound hid).weaken fun _ _ hc => hc ▸ h.withoutArtifact hid

/-! ## Rows of one kind -/

/-- Rows that read as facts are written one after the other, and the contents go on standing in `M`
to the ledger. -/
theorem writeAll_ends {ρ φ : Type} {tables parents : List Table} {numbers : ρ → List Int}
    {change : ρ → Contents → Except RowFault Contents} {Reads : Names → ρ → φ → Prop}
    (M : Contents → Ledger → Prop) (put : Ledger → List φ → Ledger) (Fits : φ → Prop) {rows : List ρ}
    {facts : List φ} (hM : ∀ {c L}, M c L → c.Complete) (hnil : ∀ L, put L [] = L)
    (hsnoc : ∀ L fs f, put (put L fs) [f] = put L (fs ++ [f]))
    (hrow : ∀ {c L r f}, M c L → f ∈ facts → Reads c.names r f →
      Refuses (numbers r) (Refused fit) c ∧ Gives (change r) (fun c' => c'.names = c.names ∧
        ((numbers r).all fitsWord = true → M c' (put L [f]) ∧ Fits f)) (Refused fit) c)
    (h : M c L) (hr : List.Forall₂ (Reads c.names) rows facts) :
    Ends s (executeAll tables parents numbers change rows) c
      (fun _ c' => M c' (put L facts) ∧ c'.names = c.names ∧ ∀ f ∈ facts, Fits f)
      (Refused fit) := by
  let I : List ρ → Contents → Prop := fun rest c₁ =>
    ∃ done left, facts = done ++ left ∧ List.Forall₂ (Reads c.names) rest left ∧
      M c₁ (put L done) ∧ c₁.names = c.names ∧ ∀ f ∈ done, Fits f
  have hstart : I rows c := ⟨[], facts, rfl, hr, by rwa [hnil], rfl, by simp⟩
  refine (executeAll I (hM h) ?_ hstart).weaken ?_
  · intro r rest c₁ hI
    obtain ⟨done, left, rfl, hleft, hm, hn, hdone⟩ := hI
    obtain ⟨f, left, hrf, hrest, rfl⟩ := List.forall₂_cons_left_iff.1 hleft
    have hf : f ∈ done ++ f :: left := by simp
    obtain ⟨hbad, hgives⟩ := hrow hm hf (by rwa [hn])
    refine ⟨hbad, hgives.imp_left fun ⟨c', hc, hn', hok⟩ => ⟨c', hc, fun hw => ?_⟩⟩
    obtain ⟨hm', hf⟩ := hok hw
    refine ⟨done ++ [f], left, by simp, hrest, by rwa [← hsnoc], hn'.trans hn, fun g hg => ?_⟩
    rcases List.mem_append.1 hg with hg | hg
    · exact hdone g hg
    · rwa [List.mem_singleton.1 hg]
  · intro _ c₁ hI
    obtain ⟨done, left, rfl, hleft, hm, hn, hdone⟩ := hI
    rw [List.forall₂_nil_left_iff.1 hleft, List.append_nil]
    exact ⟨hm, hn, hdone⟩

theorem putDeclarations_ends (h : c.Mirrors L) {rows : List DeclarationRow} {claims : List Claim}
    (hr : List.Forall₂ c.names.ClaimReads rows claims) :
    Ends s (putDeclarations rows) c (fun _ c' => c'.Mirrors (L.putClaims claims) ∧ c'.names = c.names)
      (Refused fit) := by
  refine Ends.weaken (writeAll_ends Mirrors Ledger.putClaims (fun _ => True) Mirrors.complete (fun _ => rfl)
    (fun L fs f => ?_) ?_ h hr) ?_
  · simp only [Ledger.putClaims, putAll_append]
  · intro c L r f hm _ hrf
    obtain ⟨c', hc, hn, hm'⟩ := hm.putDeclaration hrf
    refine ⟨refuses_of_fits fun _ n hmem => ?_, .inl ⟨c', hc, hn, fun hw => ⟨hm' ?_, trivial⟩⟩⟩
    · simp only [List.mem_cons, List.not_mem_nil, or_false] at hmem
      rcases hmem with rfl | rfl
      · exact hm.sound.fits_entity hrf.key
      · exact hm.sound.fits_file hrf.artifact
    · exact List.all_eq_true.1 hw _ (by simp)
  · intro _ _ hboth
    obtain ⟨hm, hn, -⟩ := hboth
    exact ⟨hm, hn⟩

theorem replaceDependencies_ends (h : c.Mirrors L) {id : Int} {path : String}
    (hid : c.filePath? id = some path) {rows : List DependencyRow} {facts : List DependencyFact}
    (hr : List.Forall₂ c.names.DependencyReads rows facts) :
    Ends s (replaceDependencies id rows) c
      (fun _ c' => c'.Mirrors (L.replaceDependencies path facts) ∧ c'.names = c.names)
      (Refused fit) := by
  refine execute_bind h.sound.toComplete (h.sound.refuses_file hid) ?_
  let put : Ledger → List DependencyFact → Ledger := fun L fs =>
    { L with dependencies := putAll (fun d => (d.artifact, d.path)) L.dependencies fs }
  have hm : (c.dropDependencies id).Mirrors
      { L with dependencies := L.dependencies.filter (·.artifact ≠ path) } :=
    { h with
      sound := { h.sound with }
      dependencies := forall₂_filter h.dependencies fun r f hr => by
        simp [h.sound.file_eq_iff hr.artifact hid] }
  refine Ends.weaken (writeAll_ends Mirrors put (fun _ => True) Mirrors.complete (fun _ => rfl)
    (fun L fs f => ?_) ?_ hm hr) ?_
  · simp only [put, putAll_append]
  · intro c L r f hm _ hrf
    obtain ⟨c', hc, hn, hm'⟩ := hm.putDependency hrf
    refine ⟨refuses_of_fits fun _ n hmem => ?_, .inl ⟨c', hc, hn, fun _ => ⟨hm', trivial⟩⟩⟩
    simp only [List.mem_cons, List.not_mem_nil, or_false] at hmem
    rcases hmem with rfl | rfl
    · exact hm.sound.fits_file hrf.artifact
    · exact hm.sound.fits_file hrf.path
  · intro _ _ hboth
    obtain ⟨hm, hn, -⟩ := hboth
    exact ⟨hm, hn⟩

end Store

/-! ## Links -/

/-- A number in a link is an id, or stands in the key that the link shows. -/
theorem Contents.Sound.fits_link (h : c.Sound) {l : StoredLink} {k : EntityKey}
    (hl : c.names.Shows l k) (hk : k.location.Fits) {n : Int} (hn : n ∈ Store.linkNumbers l) :
    fitsWord n = true := by
  obtain ⟨k', hl, hkk⟩ := hl
  have hk' : k'.location.Fits := hkk.fits hk
  cases hl with
  | linked hid =>
    simp only [Store.linkNumbers, Option.toList_some, Option.toList_none, List.append_nil,
      List.mem_singleton] at hn
    exact hn ▸ h.fits_entity hid
  | awaiting hid =>
    simp only [Store.linkNumbers, EntityKey.pendingAt, Option.toList_some, Option.toList_none,
      List.nil_append, List.cons_append, List.mem_cons, List.not_mem_nil, or_false] at hn
    rcases hn with rfl | rfl | rfl
    · exact h.fits_file hid
    · exact hk'.1
    · exact hk'.2

/-- The places that a fact about a use names fit into words. -/
structure ReferenceFact.Fits (f : ReferenceFact) : Prop where
  location : f.location.Fits
  target : f.target.location.Fits
  scope : ∀ k ∈ f.scope, k.location.Fits

structure ParameterFact.Fits (f : ParameterFact) : Prop where
  ordinal : fitsWord f.ordinal = true
  key : f.key.location.Fits

namespace Store

theorem addReferences_ends (h : c.Mirrors L) {rows : List ReferenceRecord} {facts : List ReferenceFact}
    (hr : List.Forall₂ c.names.ReferenceReads rows facts) (hfit : fit → ∀ f ∈ facts, f.Fits) :
    Ends s (addReferences rows) c
      (fun _ c' => c'.Mirrors (L.addReferences facts) ∧ c'.names = c.names ∧
        ∀ f ∈ facts, f.location.Fits)
      (Refused fit) := by
  refine writeAll_ends Mirrors Ledger.addReferences (fun f => f.location.Fits)
    Mirrors.complete (fun L => ?_) (fun L fs f => ?_) ?_ h hr
  · simp only [Ledger.addReferences, List.append_nil]
  · simp only [Ledger.addReferences, List.append_assoc]
  · intro c L r f hm hmem hrf
    refine ⟨refuses_of_fits fun hf n hn => ?_, gives_numbered rfl fun hroom => ?_⟩
    · have hfits := hfit hf f hmem
      simp only [List.mem_append, List.mem_cons, List.not_mem_nil, or_false] at hn
      rcases hn with ((rfl | rfl | rfl | rfl) | hn) | hn
      · exact hm.sound.fits_file hrf.artifact
      · exact hm.sound.fits_file hrf.file
      · exact hrf.line ▸ hfits.location.1
      · exact hrf.column ▸ hfits.location.2
      · exact hm.sound.fits_link hrf.target hfits.target hn
      · have hscope := hrf.scope
        cases hk : f.scope with
        | none =>
          rw [hk] at hscope
          have hempty : r.scope = {} := hscope
          simp [hempty, linkNumbers] at hn
        | some k =>
          rw [hk] at hscope
          exact hm.sound.fits_link hscope (hfits.scope k hk) hn
    · obtain ⟨c', hc, hn, hm'⟩ := hm.addedReference hroom hrf
      refine ⟨c', hc, hn, fun hw => ⟨hm', ?_⟩⟩
      have hall := List.all_eq_true.1 hw
      exact ⟨hrf.line ▸ hall r.line (by simp), hrf.column ▸ hall r.column (by simp)⟩

theorem putParameters_ends (h : c.Mirrors L) {rows : List ParameterRow} {facts : List ParameterFact}
    (hr : List.Forall₂ c.names.ParameterReads rows facts) (hfit : fit → ∀ f ∈ facts, f.Fits) :
    Ends s (putParameters rows) c
      (fun _ c' => c'.Mirrors (L.putParameters facts) ∧ c'.names = c.names ∧
        ∀ f ∈ facts, fitsWord f.ordinal = true)
      (Refused fit) := by
  refine writeAll_ends Mirrors Ledger.putParameters (fun f => fitsWord f.ordinal = true)
    Mirrors.complete (fun _ => rfl)
    (fun L fs f => ?_) ?_ h hr
  · simp only [Ledger.putParameters, putAll_append]
  · intro c L r f hm hmem hrf
    obtain ⟨c', hc, hn, hm'⟩ := hm.putParameter hrf
    refine ⟨refuses_of_fits fun hf n hn => ?_, .inl ⟨c', hc, hn, fun hw => ⟨hm', ?_⟩⟩⟩
    · have hfits := hfit hf f hmem
      simp only [List.mem_append, List.mem_cons, List.not_mem_nil, or_false] at hn
      rcases hn with (rfl | rfl | rfl) | hn
      · exact hm.sound.fits_entity hrf.owner
      · exact hrf.ordinal ▸ hfits.ordinal
      · exact hm.sound.fits_file hrf.artifact
      · exact hm.sound.fits_link hrf.parameter hfits.key hn
    · exact hrf.ordinal ▸ List.all_eq_true.1 hw r.ordinal (by simp)

/-! ## Entities -/

/-- The numbers of a statement about the place of a key. -/
theorem refuses_key (h : c.Sound) {key : EntityKey} {file : Int}
    (hfile : c.filePath? file = some key.file) (hfit : fit → key.location.Fits) :
    Refuses [file, key.line, key.column] (Refused fit) c := by
  refine refuses_of_fits fun hf n hn => ?_
  simp only [List.mem_cons, List.not_mem_nil, or_false] at hn
  rcases hn with rfl | rfl | rfl
  · exact h.fits_file hfile
  · exact (hfit hf).1
  · exact (hfit hf).2

theorem putEntity_ends (h : c.Mirrors L) {key : EntityKey} {file : Int}
    (hfile : c.filePath? file = some key.file) (kind : String) (hfit : fit → key.location.Fits) :
    Ends s (putEntity key.name kind file key.line key.column) c
      (fun id c' => c'.Mirrors (L.putEntity key kind) ∧ c.names.Extends c'.names ∧
        c'.names.key? id = some key ∧ key.location.Fits)
      (Refused fit) := by
  have hgives : Gives (·.putEntity key.name kind file key.line key.column) (fun c' => c'.Mirrors (L.putEntity key kind) ∧
      c.names.Extends c'.names ∧ ∃ e ∈ c'.entities, isAt key file e = true) (Refused fit) c :=
    gives_numbered rfl fun hroom => h.mergedEntity hfile hroom kind
  refine (execute h.sound.toComplete (refuses_key h.sound hfile hfit) hgives).bind fun _ c' hpost => ?_
  obtain ⟨⟨hm, hext, hthere⟩, -⟩ := hpost
  refine (query hm.sound.toComplete (refuses_key hm.sound (hext.path hfile) hfit)).weaken ?_
  intro _ _ hpost
  obtain ⟨rfl, rfl, hw⟩ := hpost
  obtain ⟨id, hat, hkey⟩ := hm.sound.entityAt? (hext.path hfile) hthere
  have hall := List.all_eq_true.1 hw
  rw [hat, Option.getD_some]
  exact ⟨hm, hext, hkey, hall key.line (by simp), hall key.column (by simp)⟩

theorem findEntity_ends (h : c.Mirrors L) (key : EntityKey) (hfit : fit → key.location.Fits) :
    Ends s (findEntity key) c
      (fun a c' => c' = c ∧ key.location.Fits ∧ ∀ id ∈ a, ∃ k, c.names.key? id = some k ∧ key.Covers k)
      (Refused fit) := by
  refine (query h.sound.toComplete (refuses_of_fits fun hf n hn => ?_)).weaken ?_
  · simp only [List.mem_cons, List.not_mem_nil, or_false] at hn
    rcases hn with rfl | rfl
    · exact (hfit hf).1
    · exact (hfit hf).2
  · intro _ _ hboth
    obtain ⟨rfl, rfl, hw⟩ := hboth
    have hall := List.all_eq_true.1 hw
    refine ⟨rfl, ⟨hall key.line (by simp), hall key.column (by simp)⟩, fun id hid => ?_⟩
    obtain ⟨e, he, rfl⟩ := Option.map_eq_some_iff.1 hid
    have hat := List.find?_some he
    simp only [Bool.and_eq_true, Bool.or_eq_true, decide_eq_true_eq] at hat
    obtain ⟨⟨⟨hname, hfile⟩, hline⟩, hcolumn⟩ := hat
    refine ⟨⟨e.name, key.file, e.line, e.column⟩, ?_, ?_, hname⟩
    · rw [h.sound.key?_of_mem (List.mem_of_find?_eq_some he)]
      exact keyOf?_eq_some.2 ⟨hfile, rfl, rfl, rfl⟩
    · simp only [EntityKey.location, hline, hcolumn]

/-! ## Settings -/

theorem lookup_map_replace {key value : String} {l : List (String × String)}
    (h : l.any (·.1 = key) = true) :
    (l.map fun p => if p.1 = key then (key, value) else p).lookup key = some value := by
  induction l with
  | nil => simp at h
  | cons p l ih =>
    by_cases hp : p.1 = key
    · simp [hp]
    · have hne : (key == p.1) = false := by simpa using fun h => hp h.symm
      simp only [List.any_cons, hp, decide_false, Bool.false_or] at h
      rw [List.map_cons, if_neg hp, List.lookup_cons, hne]
      exact ih h

theorem setting?_setSetting (c : Contents) (key value : String) :
    (c.setSetting key value).setting? key = some value := by
  unfold Contents.setSetting Contents.setting?
  split
  next h => exact lookup_map_replace h
  next h =>
    have hnone : c.settings.lookup key = none := by
      refine List.lookup_eq_none_iff.2 fun p hp => ?_
      have hne : p.1 ≠ key := fun heq => h (List.any_eq_true.2 ⟨p, hp, by simpa using heq⟩)
      simpa using hne.symm
    simp [List.lookup_append, hnone]

theorem setIndexed_mirrors (h : c.Mirrors L) {text : String} (ht : Text.isReal text.toList = true) :
    (c.setSetting Contents.indexedKey text).Mirrors L :=
  { h with
    sound := { h.sound with
      indexed := fun text' h' => by
        rw [setting?_setSetting] at h'
        rwa [← Option.some.inj h'] } }

theorem markIndexed_ends (h : c.Mirrors L) (now : Int) :
    Ends s (markIndexed now) c
      (fun _ c' => c'.Mirrors L ∧ ∃ text, c' = c.setSetting Contents.indexedKey text)
      (Refused fit) := by
  refine (execute_ok h.sound.toComplete (refuses_of_fits (by simp))).weaken ?_
  intro _ _ hpost
  obtain ⟨rfl, -⟩ := hpost
  refine ⟨setIndexed_mirrors h ?_, _, rfl⟩
  obtain ⟨n, hn⟩ := Int.eq_ofNat_of_zero_le (show 0 ≤ now % 1000 / 100 by omega)
  rw [hn]
  exact Text.isReal_pointed (now / 1000) n

end Store

end Crossref
