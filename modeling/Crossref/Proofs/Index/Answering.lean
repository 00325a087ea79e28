/-
Answers to questions about any number. Nothing that may be stored has an id that is
not in range, yet a question may be about one. If the number fits into a word, the
question is answered, and where nothing is stored nothing is found. If it does not,
the question fails, whatever is stored.
-/
import Crossref.Proofs.Index.Lookup

namespace Crossref

/-! ## What may be asked about -/

namespace StoreM

variable {s : Store} {α : Type}

theorem query_refuses (h : s.contents.Complete) (tables : List Table) {numbers : List Int}
    (hw : numbers.all fitsWord = false) (answer : Contents → α) :
    query tables numbers answer s = (.error .integerRange, s) := by
  have hwords : needWords numbers = throw .integerRange := if_neg (by simp [hw])
  rw [query, bind_apply, needTables_apply h, hwords]
  rfl

end StoreM

theorem Store.filterNumbers_all (f : EntityFilter) :
    (Store.filterNumbers f).all fitsWord = (fitsWord f.line && fitsWord f.column) := by
  have hnone : fitsWord (-1) = true := by decide
  have hskip (n : Int) : (if n = -1 then true else fitsWord n) = fitsWord n := by
    split
    next h => rw [h, hnone]
    · rfl
  unfold Store.filterNumbers
  rw [← hskip f.line, ← hskip f.column]
  by_cases hl : f.line = -1 <;> by_cases hc : f.column = -1 <;> simp [hl, hc]

namespace Contents

variable {c : Contents} {i : Int}

theorem Reached.file_of_entity (h : c.Reached) {e : EntityRow} (he : e ∈ c.entities) :
    ∃ path, c.filePath? e.fileId = some path := by
  obtain ⟨L, hm⟩ := h.mirrors
  obtain ⟨f, -, hf⟩ := exists_right_of_forall₂ hm.entities he
  exact ⟨_, hf.file⟩

theorem Reached.file_of_reference (h : c.Reached) {r : ReferenceRow} (hr : r ∈ c.references) :
    ∃ path, c.filePath? r.fileId = some path := by
  obtain ⟨L, hm⟩ := h.mirrors
  obtain ⟨f, -, hf⟩ := exists_right_of_forall₂ hm.references hr
  exact ⟨_, hf.file⟩

/-- The id that stands for no entity is that of none. -/
theorem Reached.ne_noEntity (h : c.Reached) {e : EntityRow} (he : e ∈ c.entities) : e.id ≠ Store.noEntity := by
  have hrange := h.sound.entityRange e he
  unfold Store.noEntity
  omega

theorem Reached.target_ne_noEntity (h : c.Reached) {r : ReferenceRow} (hr : r ∈ c.references) :
    r.target.id ≠ some Store.noEntity := by
  obtain ⟨L, hm⟩ := h.mirrors
  obtain ⟨f, -, k, hreads, -⟩ := exists_right_of_forall₂ (R := fun r f => c.names.Shows r.target f.target)
    (hm.references.imp fun _ _ hf => hf.target) hr
  intro hid
  generalize r.target = l at hreads hid
  cases hreads with
  | linked hkey =>
    obtain ⟨e, he, rfl, -⟩ := mem_of_key? hkey
    exact h.ne_noEntity he (Option.some.inj hid)
  | awaiting _ => cases hid

theorem Reached.owner_ne_noEntity (h : c.Reached) {p : ParameterRow} (hp : p ∈ c.parameters) :
    p.ownerId ≠ Store.noEntity := by
  obtain ⟨L, hm⟩ := h.mirrors
  obtain ⟨f, -, hf⟩ := exists_right_of_forall₂ hm.parameters hp
  obtain ⟨e, he, hid, -⟩ := mem_of_key? hf.owner
  exact hid ▸ h.ne_noEntity he

/-- References are found exactly if there are rows for them. -/
theorem Reached.referenceInfos_eq_nil (h : c.Reached) :
    c.referenceInfos i = [] ↔ ∀ r ∈ c.references, r.target.id ≠ some i := by
  unfold referenceInfos
  rw [← List.length_eq_zero_iff, List.length_mergeSort, List.length_eq_zero_iff, List.filterMap_eq_nil_iff]
  refine forall₂_congr fun r hr => ?_
  obtain ⟨path, hpath⟩ := h.file_of_reference hr
  simp [referenceInfo?, hpath]

theorem parameterInfos_eq_nil : c.parameterInfos i = [] ↔ ∀ p ∈ c.parameters, p.ownerId ≠ i := by
  unfold parameterInfos
  rw [← List.length_eq_zero_iff, List.length_mergeSort, List.length_eq_zero_iff, List.map_eq_nil_iff,
    List.filter_eq_nil_iff]
  simp

theorem entityInfo?_unknown (h : ∀ e ∈ c.entities, e.id ≠ i) : c.entityInfo? i = none := by
  have hfind : c.entities.find? (fun e => decide (e.id = i)) = none :=
    List.find?_eq_none.2 fun e he => by simpa using h e he
  rw [entityInfo?, hfind, Option.bind_none]

theorem Reached.entityInfo?_known (h : c.Reached) {e : EntityRow} (he : e ∈ c.entities) :
    ∃ path, c.filePath? e.fileId = some path ∧
      c.entityInfo? e.id = some ⟨e.id, e.name, e.kind, ⟨path, e.line, e.column⟩⟩ := by
  obtain ⟨path, hpath⟩ := h.file_of_entity he
  refine ⟨path, hpath, ?_⟩
  rw [entityInfo?, find?_slot h.sound.entityIds he, Option.bind_some, info?, hpath, Option.map_some]

/-- What an index says of the entity with an id. -/
def declarationInfo (c : Contents) (i : Int) : DeclarationInfo :=
  match c.entityInfo? i with
  | none => {}
  | some e => ⟨e.name, e.kind, e.location⟩

end Contents

/-! ## Answers -/

namespace Index

open Contents WorkM

/-- A cursor is handed out that stands before these findings; it has an element if there are any. -/
def HandsOut (opened : WorkM (Index × Nat)) (w : Workspace) (found : List Finding) : Prop :=
  ∃ y n held w', opened w = (.ok (y, n), w') ∧ y.cursors[n]? = some held ∧ held.cursor = .ofRows found ∧
    y.hasElement held = .ok !found.isEmpty

/-- Questions about an id are answered: with nothing, where nothing is stored for it. -/
structure Answers (x : Index) (w : Workspace) (c : Contents) (i : Int) : Prop where
  unknown : (∀ e ∈ c.entities, e.id ≠ i) → (x.declaration (some i) w).1 = .ok {}
  known : ∀ e ∈ c.entities, e.id = i → ∃ path, c.filePath? e.fileId = some path ∧
    (x.declaration (some i) w).1 = .ok ⟨e.name, e.kind, ⟨path, e.line, e.column⟩⟩
  references : ∃ found, HandsOut (x.references (some i)) w found ∧
    (found = [] ↔ ∀ r ∈ c.references, r.target.id ≠ some i)
  parameters : ∃ found, HandsOut (x.parameters (some i)) w found ∧
    (found = [] ↔ ∀ p ∈ c.parameters, p.ownerId ≠ i)

/-- Questions about an id are not answered. -/
structure Refuses (x : Index) (w : Workspace) (i : Int) : Prop where
  declaration : (x.declaration (some i) w).1 = .error .integerRange
  references : (x.references (some i) w).1 = .error .integerRange
  parameters : (x.parameters (some i) w).1 = .error .integerRange

variable {x : Index} {w : Workspace} {c : Contents} {α : Type} {i : Int}

theorem hasElement_ofRows (y : Index) {held : HeldCursor} {found : List Finding} (hrows : held.cursor = .ofRows found)
    (hlook : y.admitLook held = .ok ()) : y.hasElement held = .ok !found.isEmpty := by
  unfold hasElement
  rw [hrows, hlook]
  cases found <;> rfl

theorem Asks.handsOut {id : Nat} (h : x.Asks w c) (hid : x.admitQuestion = .ok id) (finding : α → Finding)
    {question : StoreM (List α)} {rows : List α} (hq : ∀ s : Store, s.contents = c → question s = (.ok rows, s.start)) :
    HandsOut (x.openCursor finding question) w (rows.map finding) := by
  obtain ⟨w', hopened, -⟩ := h.openCursor_apply hid finding hq
  exact ⟨_, _, _, w', hopened, mem_handOut x _, rfl, hasElement_ofRows _ rfl (admitLook_handOut hid rfl)⟩

theorem handsOut_empty {id : Nat} (hid : x.admitQuestion = .ok id) : HandsOut x.emptyCursor w [] := by
  refine ⟨_, _, _, w, ?_, mem_handOut x ⟨.ofRows [], x.generation, none, true⟩, rfl, rfl⟩
  unfold emptyCursor
  rw [hid]
  rfl

/-- A question that fails for a number fails for it at the index too. -/
theorem Asks.ask_refuses {id : Nat} (h : x.Asks w c) (hid : x.admitQuestion = .ok id) {question : StoreM α}
    (hq : ∀ s : Store, s.contents = c → question s = (.error .integerRange, s)) :
    ∃ w', Index.ask id question w = (.error .integerRange, w') := by
  obtain ⟨id', k, hid', hk, hopen, hc⟩ := h.admitted
  obtain rfl : id = id' := Except.ok.inj (hid.symm.trans hid')
  refine ⟨w.keep id k (w.storeOf k), ?_⟩
  unfold Index.ask
  rw [bind_apply, connection_apply hk]
  dsimp only
  rw [tryCatch_apply, onStore_apply hk hopen, hq _ hc]
  rfl

theorem Asks.openCursor_refuses {id : Nat} (h : x.Asks w c) (hid : x.admitQuestion = .ok id) (finding : α → Finding)
    {question : StoreM (List α)} (hq : ∀ s : Store, s.contents = c → question s = (.error .integerRange, s)) :
    (x.openCursor finding question w).1 = .error .integerRange := by
  obtain ⟨w', hask⟩ := h.ask_refuses hid hq
  unfold openCursor
  rw [hid, bind_apply]
  change ((Index.ask id question >>= _ : WorkM _) w).1 = _
  rw [bind_apply, hask]

/-! ### An id -/

theorem meant_of_ne (h : i ≠ Store.noEntity) : meant (some i) = some i := by
  simp [meant, h]

theorem ne_noEntity_of_not_fits (h : fitsWord i = false) : i ≠ Store.noEntity := by
  rintro rfl
  exact absurd h (by decide)

theorem Asks.declaration_apply (h : x.Asks w c) (hc : c.Complete) (hfit : fitsWord i = true)
    (hi : i ≠ Store.noEntity) : (x.declaration (some i) w).1 = .ok (c.declarationInfo i) := by
  obtain ⟨id, _, hid, -⟩ := h.admitted
  have hq (s : Store) (hs : s.contents = c) : Store.entity? i s = (.ok (c.entityInfo? i), s.start) := by
    subst hs
    unfold Store.entity?
    rw [if_neg hi]
    exact StoreM.query_apply hc _ (by simp [hfit]) _
  obtain ⟨k, hask, -⟩ := h.ask hid hq
  unfold declaration
  rw [hid, meant_of_ne hi]
  change ((Index.ask id (Store.entity? i) >>= _ : WorkM _) w).1 = _
  rw [bind_apply, hask]
  unfold declarationInfo
  cases c.entityInfo? i <;> rfl

theorem declaration_noEntity {id : Nat} (hid : x.admitQuestion = .ok id) :
    (x.declaration (some Store.noEntity) w).1 = .ok {} := by
  unfold declaration
  rw [hid]
  rfl

theorem Asks.answers_of_ne (h : x.Asks w c) (hc : c.Reached) (hfit : fitsWord i = true) (hi : i ≠ Store.noEntity) :
    x.Answers w c i := by
  have hcomplete := hc.sound.toComplete
  have hdeclaration := h.declaration_apply hcomplete hfit hi
  obtain ⟨id, _, hid, -⟩ := h.admitted
  refine ⟨fun hnone => ?_, fun e he heq => ?_, ?_, ?_⟩
  · rw [hdeclaration, declarationInfo, entityInfo?_unknown hnone]
  · obtain ⟨path, hpath, hinfo⟩ := hc.entityInfo?_known he
    refine ⟨path, hpath, ?_⟩
    rw [hdeclaration, declarationInfo, ← heq, hinfo]
  · have hq (s : Store) (hs : s.contents = c) : Store.references i s = (.ok (c.referenceInfos i), s.start) := by
      subst hs
      exact StoreM.query_apply hcomplete _ (by simp [hfit]) _
    refine ⟨(c.referenceInfos i).map .reference, ?_, by rw [List.map_eq_nil_iff, hc.referenceInfos_eq_nil]⟩
    unfold references
    rw [meant_of_ne hi]
    exact h.handsOut hid _ hq
  · have hq (s : Store) (hs : s.contents = c) : Store.parameters i s = (.ok (c.parameterInfos i), s.start) := by
      subst hs
      exact StoreM.query_apply hcomplete _ (by simp [hfit]) _
    refine ⟨(c.parameterInfos i).map .parameter, ?_, by rw [List.map_eq_nil_iff, parameterInfos_eq_nil]⟩
    unfold parameters
    rw [meant_of_ne hi]
    exact h.handsOut hid _ hq

theorem Asks.answers_noEntity (h : x.Asks w c) (hc : c.Reached) : x.Answers w c Store.noEntity := by
  obtain ⟨id, _, hid, -⟩ := h.admitted
  exact
    { unknown := fun _ => declaration_noEntity hid
      known := fun e he heq => absurd heq (hc.ne_noEntity he)
      references := ⟨[], handsOut_empty hid, by simpa using fun r hr => hc.target_ne_noEntity hr⟩
      parameters := ⟨[], handsOut_empty hid, by simpa using fun p hp => hc.owner_ne_noEntity hp⟩ }

theorem Asks.refuses (h : x.Asks w c) (hc : c.Complete) (hfit : fitsWord i = false) : x.Refuses w i := by
  have hi := ne_noEntity_of_not_fits hfit
  have hnumbers : [i].all fitsWord = false := by simp [hfit]
  obtain ⟨id, _, hid, -⟩ := h.admitted
  constructor
  · have hq (s : Store) (hs : s.contents = c) : Store.entity? i s = (.error .integerRange, s) := by
      subst hs
      unfold Store.entity?
      rw [if_neg hi]
      exact StoreM.query_refuses hc _ hnumbers _
    obtain ⟨w', hask⟩ := h.ask_refuses hid hq
    unfold declaration
    rw [hid, meant_of_ne hi]
    change ((Index.ask id (Store.entity? i) >>= _ : WorkM _) w).1 = _
    rw [bind_apply, hask]
  · unfold references
    rw [meant_of_ne hi]
    refine h.openCursor_refuses hid _ fun s hs => ?_
    subst hs
    exact StoreM.query_refuses hc _ hnumbers _
  · unfold parameters
    rw [meant_of_ne hi]
    refine h.openCursor_refuses hid _ fun s hs => ?_
    subst hs
    exact StoreM.query_refuses hc _ hnumbers _

/-! ### A name and a place -/

/-- What a search finds first is stored. -/
theorem hasEntity_of_head? {f : EntityFilter} {e : EntityInfo} (h : (c.entityInfos f).head? = some e) :
    c.hasEntity e.id = true := by
  obtain ⟨⟨r, hr, hinfo⟩, -⟩ := mem_entityInfos.1 (List.mem_of_head? h)
  obtain ⟨-, hid, -⟩ := info?_eq_some.1 hinfo
  simp only [hasEntity, List.any_eq_true, decide_eq_true_eq]
  exact ⟨r, hr, hid.symm⟩

theorem Asks.entity?_refuses (h : x.Asks w c) (hc : c.Complete) {name : String} {file : FileArgument} {line column : Int}
    (hfit : (fitsWord line && fitsWord column) = false) :
    (x.entity? name file line column w).1 = .error .integerRange := by
  obtain ⟨id, _, hid, -⟩ := h.admitted
  let filter : EntityFilter := { name := some name, file := some file.searched, line, column }
  have hq (s : Store) (hs : s.contents = c) : Store.entities filter s = (.error .integerRange, s) := by
    subst hs
    exact StoreM.query_refuses hc _ ((Store.filterNumbers_all filter).trans hfit) _
  obtain ⟨w', hask⟩ := h.ask_refuses hid hq
  unfold entity?
  rw [hid]
  change ((Index.ask id (Store.entities filter) >>= _ : WorkM _) w).1 = _
  rw [bind_apply, hask]

/-- **Questions about any number.** A question about an id that fits into a word is answered, and with nothing where
nothing is stored for it; a question about any other id fails. A lookup answers an id that is stored or none if its
line and its column fit, and fails if one of them does not. -/
theorem Asks.answers_iff_fits (h : x.Asks w c) (hc : c.Reached) :
    (∀ i, fitsWord i = true → x.Answers w c i) ∧ (∀ i, fitsWord i = false → x.Refuses w i) ∧
      ∀ name file line column,
        ((fitsWord line && fitsWord column) = true → ∃ found : Option Int,
          (x.entity? name file line column w).1 = .ok found ∧ ∀ id ∈ found, c.hasEntity id = true) ∧
        ((fitsWord line && fitsWord column) = false →
          (x.entity? name file line column w).1 = .error .integerRange) := by
  have hcomplete := hc.sound.toComplete
  refine ⟨fun i hfit => ?_, fun i => h.refuses hcomplete, fun name file line column => ⟨fun hfit => ?_, fun hfit => ?_⟩⟩
  · by_cases hi : i = Store.noEntity
    · exact hi ▸ h.answers_noEntity hc
    · exact h.answers_of_ne hc hfit hi
  · refine ⟨_, h.entity?_apply hcomplete ((Store.filterNumbers_all _).trans hfit), fun id hid => ?_⟩
    obtain ⟨e, he, rfl⟩ := Option.map_eq_some_iff.1 (Option.mem_def.1 hid)
    exact hasEntity_of_head? he
  · exact h.entity?_refuses hcomplete hfit

end Index

/-! ## An id that nobody has -/

namespace Shadowed

open Index

/-- Of the entity with the id 7, which there is not, nothing is known. -/
theorem answers_seven :
    index.Asks work contents ∧ contents.Reached ∧ (∀ e ∈ contents.entities, e.id ≠ 7) ∧
      (index.declaration (some 7) work).1 = .ok {} ∧ index.Answers work contents 7 := by
  have hunknown : ∀ e ∈ contents.entities, e.id ≠ 7 := by decide +kernel
  have hanswers := (asks.answers_iff_fits reached).1 7 (by decide)
  exact ⟨asks, reached, hunknown, hanswers.unknown hunknown, hanswers⟩

/-- Nor is there an entity with an id beyond the largest word, or a place in such a line, but to ask for them fails. -/
theorem refuses_beyond :
    index.Asks work contents ∧ contents.Reached ∧ (∀ e ∈ contents.entities, e.id ≠ 0x8000000000000000) ∧
      index.Refuses work 0x8000000000000000 ∧
      (index.entity? "F" (.text "pkg.adb") 0x8000000000000000 1 work).1 = .error .integerRange := by
  have hcomplete := reached.sound.toComplete
  refine ⟨asks, reached, ?_, asks.refuses hcomplete (by decide), asks.entity?_refuses hcomplete (by decide)⟩
  decide +kernel

end Shadowed

end Crossref
