/-
What every unit that can be read has in common. It bears the labels it was read
under; its declarations, the targets and scopes of its references and the owners
of its parameters have names, and no key is declared twice. Such a property is an
invariant of the draft: it holds after every line, whether the line is accepted or
refused.
-/
import Mathlib.Data.List.Nodup
import Mathlib.Data.List.TakeWhile
import Crossref.Proofs.Artifact.Steps
import Crossref.Proofs.Text.Numeral

namespace Crossref

/-- Keys that are declared, used or hold a use are keys with a name, and each is declared once. -/
structure CompilationUnit.Named (u : CompilationUnit) : Prop where
  declarations : ∀ d ∈ u.declarations, d.key.name ≠ ""
  distinct : (u.declarations.map (·.key)).Nodup
  targets : ∀ r ∈ u.references, r.target.name ≠ ""
  scopes : ∀ r ∈ u.references, ∀ k ∈ r.scope, k.name ≠ ""
  owners : ∀ p ∈ u.parameters, p.owner.name ≠ ""

namespace Artifact

/-! ## Scopes -/

theorem owner_of_mem_scopeRanges {declared : List EntityKey} {uses : List Use} {file : String}
    {r : ScopeRange} (h : r ∈ scopeRanges declared uses file) : ∃ u ∈ uses, u.target = r.owner := by
  simp only [scopeRanges, List.mem_mergeSort, List.mem_flatMap, ownerRanges, List.mem_map] at h
  obtain ⟨owner, howner, p, -, rfl⟩ := h
  simp only [closingOwners, List.mem_eraseDups, List.mem_map, List.mem_filter] at howner
  obtain ⟨u, ⟨hu, -⟩, rfl⟩ := howner
  exact ⟨u, hu, rfl⟩

/-- A scope is the target of some use. -/
theorem target_of_scopeOf {declared : List EntityKey} {uses : List Use} {l : Location} {k : EntityKey}
    (h : scopeOf (scopeTable declared uses) l = some k) : ∃ u ∈ uses, u.target = k := by
  simp only [scopeOf, innermost, Option.map_eq_some_iff] at h
  obtain ⟨r, hr, rfl⟩ := h
  have hmem : r ∈ ((scopeTable declared uses).lookup l.file).getD [] :=
    (List.takeWhile_sublist _).subset (List.mem_of_mem_filter (List.mem_of_getLast? hr))
  cases ht : (scopeTable declared uses).lookup l.file with
  | none => simp [ht] at hmem
  | some ranges =>
    rw [ht, Option.getD_some] at hmem
    obtain ⟨before, after, hsplit, -⟩ := List.lookup_eq_some_iff.1 ht
    have htable : (l.file, ranges) ∈ scopeTable declared uses := by simp [hsplit]
    simp only [scopeTable, List.mem_map] at htable
    obtain ⟨file, -, heq⟩ := htable
    obtain rfl := (Prod.mk.inj heq).2
    exact owner_of_mem_scopeRanges hmem

/-! ## The draft -/

/-- What holds of the draft after every line. -/
structure Draft.Named (d : Draft) : Prop where
  declared : ∀ e ∈ d.declared, e.key.name ≠ ""
  distinct : d.keys.Nodup
  uses : ∀ u ∈ d.uses, u.target.name ≠ ""
  passed : ∀ p ∈ d.passed, p.owner.name ≠ ""
  entity : ∀ e ∈ d.entity, e.key.name ≠ ""

/-- A declared key comes last, unless it was declared before. -/
theorem Draft.keys_declare (d : Draft) (new : Declared) :
    (d.declare new).keys = if new.key ∈ d.keys then d.keys else d.keys ++ [new.key] := by
  have hany : d.declared.any (·.key = new.key) = true ↔ new.key ∈ d.keys := by
    simp only [Draft.keys, List.any_eq_true, decide_eq_true_eq, List.mem_map]
  unfold Draft.declare Draft.keys
  by_cases hold : new.key ∈ d.keys
  · have hsame (e : Declared) : (if e.key = new.key then new else e).key = e.key := by
      by_cases he : e.key = new.key <;> simp [he]
    simp only [hany.2 hold, if_true, List.map_map, Function.comp_def, hsame]
    exact (if_pos hold).symm
  · simp only [hany, hold, if_false, List.map_append, List.map_singleton]
    exact (if_neg hold).symm

theorem Draft.mem_declare {d : Draft} {new e : Declared} (h : e ∈ (d.declare new).declared) :
    e = new ∨ e ∈ d.declared := by
  unfold Draft.declare at h
  simp only at h
  split at h
  · obtain ⟨old, hold, rfl⟩ := List.mem_map.1 h
    split
    · exact .inl rfl
    · exact .inr hold
  · rcases List.mem_append.1 h with h | h
    · exact .inr h
    · exact .inl (List.mem_singleton.1 h)

theorem Draft.Named.declare {d : Draft} (h : d.Named) {new : Declared} (hn : new.key.name ≠ "") :
    (d.declare new).Named := by
  refine { h with declared := ?_, distinct := ?_ }
  · intro e he
    rcases Draft.mem_declare he with rfl | he
    · exact hn
    · exact h.declared e he
  · rw [Draft.keys_declare]
    split
    · exact h.distinct
    next hnew => exact List.nodup_append_comm.1 (List.nodup_cons.2 ⟨hnew, h.distinct⟩)

theorem Draft.Named.use {d : Draft} (h : d.Named) {new : Use} (hn : new.target.name ≠ "") :
    ({ d with uses := d.uses ++ [new] } : Draft).Named := by
  refine { h with uses := ?_ }
  simp only [List.mem_append, List.mem_singleton]
  intro u hu
  rcases hu with hu | rfl
  · exact h.uses u hu
  · exact hn

theorem Draft.Named.pass {d : Draft} (h : d.Named) {new : Passed} (hn : new.owner.name ≠ "") :
    ({ d with passed := d.passed ++ [new] } : Draft).Named := by
  refine { h with passed := ?_ }
  simp only [List.mem_append, List.mem_singleton]
  intro p hp
  rcases hp with hp | rfl
  · exact h.passed p hp
  · exact hn

theorem Draft.Named.open {d : Draft} (h : d.Named) {e : OpenEntity} (hn : e.key.name ≠ "") :
    ({ d with entity := some e } : Draft).Named := by
  refine { h with entity := ?_ }
  intro _ hid
  cases hid
  exact hn

/-- A property of the draft that survives the records about the unit as a whole. -/
structure Draft.HeaderInvariant (P : Draft → Prop) : Prop where
  version : ∀ {d}, P d → ∀ version, P { d with version }
  unit : ∀ {d}, P d → ∀ unitName source,
    P { d with
      unitName
      sourceFiles :=
        if d.sourceFiles.contains (slashed source) then d.sourceFiles else d.sourceFiles ++ [slashed source] }
  depend : ∀ {d}, P d → ∀ path stamp checksum unitName, isStamp stamp = true → isChecksum checksum = true →
    P { d with
      dependencies := d.dependencies ++
        [⟨slashed path, String.ofList stamp, String.ofList (checksum.map Char.toLower), unitName⟩] }

/-- A property of the draft that survives every change that a line can make. -/
structure Draft.Invariant (P : Draft → Prop) : Prop extends HeaderInvariant P where
  enter : ∀ {d}, P d → ∀ r ∈ d.dependencies, ∀ file, r.path = slashed file →
    P { d with sectionFile := some (slashed file), entity := none }
  declare : ∀ {d}, P d → ∀ new, new.key.name ≠ "" → d.sectionFile = some new.key.file →
    0 ≤ new.key.line → 0 ≤ new.key.column →
    P { d.declare new with entity := some ⟨new.key, new.key.file, 0⟩ }
  move : ∀ {d}, P d → ∀ r ∈ d.dependencies,
    P { d with entity := d.entity.map fun e => { e with file := r.path } }
  use : ∀ {d e}, P d → d.entity = some e → ∀ location kind, location.file = e.file →
    P { d with uses := d.uses ++ [⟨e.key, location, kind⟩] }
  pass : ∀ {d e}, P d → d.entity = some e → ∀ location mode, location.file = e.file →
    P { d with
      entity := some { e with parameters := e.parameters + 1 }
      passed := d.passed ++ [⟨e.key, location, mode, e.parameters + 1⟩] }

theorem Draft.invariant_named : Draft.Invariant Draft.Named where
  version h _ := { h with }
  unit h _ _ := { h with }
  depend h _ _ _ _ _ _ := { h with }
  enter h _ _ _ _ := { h with entity := by simp }
  declare h _ hn _ _ _ := (h.declare hn).open hn
  move h _ _ := by
    refine { h with entity := ?_ }
    simp only [Option.mem_def, Option.map_eq_some_iff]
    intro _ hmem
    obtain ⟨e, he, rfl⟩ := hmem
    exact h.entity e he
  use h he _ _ _ := h.use (h.entity _ he)
  pass h he _ _ _ :=
    have hn := h.entity _ he
    (h.pass hn).open hn

/-- The labels that a unit is read under stay. -/
theorem Draft.invariant_labels (path checksum : String) :
    Draft.Invariant fun d => d.path = path ∧ d.checksum = checksum where
  version h _ := h
  unit h _ _ := h
  depend h _ _ _ _ _ _ := h
  enter h _ _ _ _ := h
  declare h _ _ _ _ _ := h
  move h _ _ := h
  use h _ _ _ _ := h
  pass h _ _ _ _ := h

theorem Draft.Named.toUnit {d : Draft} (h : d.Named) : d.toUnit.Named where
  declarations := by
    simp only [Draft.toUnit, List.mem_map]
    intro _ hmem
    obtain ⟨e, he, rfl⟩ := hmem
    exact h.declared e he
  distinct := by
    simp only [Draft.toUnit, List.map_map]
    exact h.distinct
  targets := by
    simp only [Draft.toUnit, List.mem_map]
    intro _ hmem
    obtain ⟨u, hu, rfl⟩ := hmem
    exact h.uses u hu
  scopes := by
    simp only [Draft.toUnit, List.mem_map]
    intro _ hmem k hk
    obtain ⟨u, hu, rfl⟩ := hmem
    obtain ⟨u', hu', rfl⟩ := target_of_scopeOf hk
    exact h.uses u' hu'
  owners := by
    simp only [Draft.toUnit, List.mem_map]
    intro _ hmem
    obtain ⟨p, hp, rfl⟩ := hmem
    exact h.passed p hp

/-! ## Lines -/

namespace ReadM

/-- A step of reading that keeps a property of the draft, whether it succeeds or not. -/
def Keeps (P : Draft → Prop) {α : Type} (x : ReadM α) : Prop :=
  ∀ d, P d → P (x d).2

variable {P : Draft → Prop} {α β : Type}

theorem Keeps.pure (a : α) : Keeps P (pure a : ReadM α) :=
  fun _ h => h

theorem Keeps.refuse (reason : Reason) : Keeps P (refuse reason : ReadM α) :=
  fun _ h => h

theorem Keeps.bind {x : ReadM α} {f : α → ReadM β} (hx : Keeps P x) (hf : ∀ a, Keeps P (f a)) :
    Keeps P (x >>= f) := by
  intro d hd
  have hxd := hx d hd
  change P ((ExceptT.bind x f : ExceptT Fault (StateM Draft) β) d).2
  unfold ExceptT.bind ExceptT.mk ExceptT.bindCont
  simp only [Bind.bind, StateT.bind]
  rcases h : x d with ⟨e | a, d'⟩
  · rw [h] at hxd
    exact hxd
  · rw [h] at hxd
    exact hf a d' hxd

theorem Keeps.get {f : Draft → ReadM β} (h : ∀ d, P d → P ((f d) d).2) : Keeps P (get >>= f) :=
  h

theorem Keeps.forM {ρ : Type} {f : ρ → ReadM PUnit} (hf : ∀ r, Keeps P (f r)) :
    ∀ rows : List ρ, Keeps P (rows.forM f)
  | [] => Keeps.pure ()
  | r :: rows => Keeps.bind (hf r) fun _ => Keeps.forM hf rows

theorem number_keeps (text : List Char) : Keeps P (number text) := by
  unfold number
  split
  · exact Keeps.pure _
  · exact fun _ h => h

/-- What is read from a numeral may be used; the draft is the same. -/
theorem Keeps.number {text : List Char} {f : Int → ReadM β} {d : Draft} (hd : P d)
    (hf : ∀ n, Text.readInt text = .ok n → P (f n d).2) : P ((number text >>= f) d).2 := by
  unfold ReadM.number
  split
  next n hn => exact hf n hn
  · exact hd

/-- A dependency with an index is one of those that are there. -/
theorem Keeps.dependencyAt {text : List Char} {f : Dependency → ReadM β} {d : Draft} (hd : P d)
    (hf : ∀ r ∈ d.dependencies, P (f r d).2) : P ((dependencyAt text >>= f) d).2 := by
  unfold ReadM.dependencyAt
  rw [bind_assoc]
  refine Keeps.number hd fun index _ => ?_
  rw [bind_assoc, get_bind]
  split
  next r hfound =>
    refine hf r ?_
    split at hfound
    · exact List.mem_of_getElem? hfound
    · cases hfound
  · exact hd

/-- What is checked is so, or nothing happens. -/
theorem Keeps.checkChecksum {text : List Char} {f : PUnit → ReadM β} {d : Draft} (hd : P d)
    (hf : isChecksum text = true → P (f () d).2) : P ((checkChecksum text >>= f) d).2 := by
  unfold ReadM.checkChecksum
  split
  next h => exact hf h
  · exact hd

/-- The head of an entity line has a name, and its line and column are written in digits. -/
theorem written_of_ofText? {s : List Char} {head : EntityHead} (h : EntityHead.ofText? s = some head) :
    head.name ≠ [] ∧ (∀ c ∈ head.line, Text.isDecimal c = true) ∧ ∀ c ∈ head.column, Text.isDecimal c = true := by
  unfold EntityHead.ofText? at h
  split at h
  · exact absurd h (by simp)
  · split at h
    · exact absurd h (by simp)
    · dsimp only at h
      split at h
      · exact absurd h (by simp)
      next hchecks =>
        obtain rfl := Option.some.inj h
        simp only [Bool.or_eq_true, not_or] at hchecks
        refine ⟨by simpa using hchecks.2, fun c hc => ?_, fun c hc => ?_⟩
        · exact List.mem_takeWhile_imp hc
        · exact List.mem_takeWhile_imp hc

/-! A record about the unit keeps what does not depend on the sections. -/

section
variable (hP : Draft.HeaderInvariant P)
include hP

theorem versionRecord_keeps (body : List Char) : Keeps P (versionRecord body) := by
  refine Keeps.get fun d hd => ?_
  split
  · exact hd
  · split
    · exact hd
    · exact hP.version hd _

theorem unitRecord_keeps (body : List Char) : Keeps P (unitRecord body) := by
  unfold unitRecord
  split
  · exact fun d hd => Keeps.checkChecksum hd fun _ => hP.unit hd _ _
  · exact Keeps.refuse _

theorem addDependency_keeps (path stamp checksum unitName : List Char) :
    Keeps P (addDependency path stamp checksum unitName) := by
  unfold addDependency
  split
  · exact Keeps.refuse _
  next hstamp =>
    rw [Bool.not_eq_true', Bool.not_eq_false] at hstamp
    exact fun d hd => Keeps.checkChecksum hd fun hchecksum => hP.depend hd _ _ _ _ hstamp hchecksum

theorem dependencyRecord_keeps (body : List Char) : Keeps P (dependencyRecord body) := by
  unfold dependencyRecord
  split
  · exact addDependency_keeps hP _ _ _ _
  · exact addDependency_keeps hP _ _ _ _
  · exact Keeps.refuse _

theorem headerRecord_keeps_of_ne {tag : Char} (htag : tag ≠ 'X') (body : List Char) :
    Keeps P (headerRecord tag body) := by
  unfold headerRecord
  split
  · exact versionRecord_keeps hP body
  · exact unitRecord_keeps hP body
  · exact dependencyRecord_keeps hP body
  · exact absurd rfl htag
  · exact Keeps.pure _

end

/-! A record of a line keeps every invariant. -/

section
variable (hP : Draft.Invariant P)
include hP

theorem sectionRecord_keeps (body : List Char) : Keeps P (sectionRecord body) := by
  unfold sectionRecord
  split
  next file _ =>
    refine fun d hd => Keeps.dependencyAt hd fun r hr => ?_
    dsimp only
    split
    · exact hd
    next hpath => exact hP.enter hd r hr _ (not_not.1 hpath)
  · exact Keeps.refuse _

theorem moveTo_keeps (index : List Char) : Keeps P (moveTo index) :=
  fun _ hd => Keeps.dependencyAt hd fun r hr => hP.move hd r hr

theorem recordMention_keeps (m : Mention) (token : List Char) : Keeps P (recordMention m token) := by
  refine Keeps.bind (number_keeps _) fun line => ?_
  refine Keeps.bind (number_keeps _) fun column => ?_
  refine Keeps.get fun d hd => ?_
  cases he : d.entity with
  | none => exact hd
  | some e =>
    cases hmode : parameterModes.lookup m.tag with
    | some mode => exact hP.pass hd he _ _ rfl
    | none =>
      cases hkind : referenceKinds.lookup m.tag with
      | some kind => exact hP.use hd he _ _ rfl
      | none => exact hd

theorem mention_keeps (token : List Char) : Keeps P (mention token) := by
  unfold mention
  split
  · exact Keeps.refuse _
  next m _ =>
    dsimp only
    split
    · exact Keeps.bind (moveTo_keeps hP _) fun _ => recordMention_keeps hP m token
    · exact recordMention_keeps hP m token

theorem entityLine_keeps (s : List Char) : Keeps P (entityLine s) := by
  refine Keeps.get fun d hd => ?_
  cases hfile : d.sectionFile with
  | none => exact hd
  | some file =>
    cases hhead : EntityHead.ofText? s with
    | none => exact hd
    | some head =>
      obtain ⟨hwritten, hheadLine, hheadColumn⟩ := written_of_ofText? hhead
      have hname : String.ofList head.name ≠ "" := by simpa using hwritten
      have hrest : Keeps P ((Text.words head.rest).forM mention) := Keeps.forM (mention_keeps hP) _
      refine Keeps.number hd fun line hline => Keeps.number hd fun column hcolumn => hrest _ ?_
      exact hP.declare hd _ hname hfile (Text.readInt_nonneg hheadLine hline)
        (Text.readInt_nonneg hheadColumn hcolumn)

theorem continuationLine_keeps (s : List Char) : Keeps P (continuationLine s) := by
  refine Keeps.get fun d hd => ?_
  have hrest : Keeps P ((Text.words s).forM mention) := Keeps.forM (mention_keeps hP) _
  dsimp only
  split
  · exact hd
  · exact hrest d hd

theorem headerRecord_keeps (tag : Char) (body : List Char) : Keeps P (headerRecord tag body) := by
  by_cases htag : tag = 'X'
  · subst htag
    exact sectionRecord_keeps hP body
  · exact headerRecord_keeps_of_ne hP.toHeaderInvariant htag body

/-- **Every line keeps an invariant, also one that is refused.** -/
theorem record_keeps : ∀ line : List Char, Keeps P (record line)
  | [] => Keeps.pure _
  | tag :: rest => by
    refine Keeps.get fun d hd => ?_
    dsimp only
    split
    · exact hd
    · split
      · exact entityLine_keeps hP _ d hd
      · split
        · exact continuationLine_keeps hP _ d hd
        · split
          · exact Keeps.refuse _ d hd
          · split
            · exact headerRecord_keeps hP _ _ d hd
            · exact Keeps.refuse _ d hd

end

end ReadM

/-! ## Artifacts -/

/-- The unit that a reading leaves: the whole one, or what a refusal carries of it. -/
def unitLeft : Except ReadError CompilationUnit → Option CompilationUnit
  | .ok u => some u
  | .error (.refused _ _ sofar) => sofar
  | .error (.numeral _) => none

/-- A unit that a reading leaves, whole or in part, comes from a draft with every invariant of the first draft. -/
theorem Draft.Invariant.leaves {P : Draft → Prop} (hP : Invariant P) {u : CompilationUnit} :
    ∀ {lines : List (List Char)} {d : Draft} {number : Nat}, P d →
      unitLeft (d.readLines number lines) = some u → ∃ d', P d' ∧ d'.toUnit = u
  | [], d, number, h, hu => by
    unfold Draft.readLines at hu
    split at hu <;> exact ⟨d, h, Option.some.inj hu⟩
  | line :: lines, d, number, h, hu => by
    unfold Draft.readLines at hu
    have hkeep := ReadM.record_keeps hP (Text.trimEnd line) d h
    split at hu
    · exact hP.leaves h hu
    · split at hu
      next d' hrun =>
        have hd : (ReadM.record (Text.trimEnd line) d).2 = d' := congrArg Prod.snd hrun
        exact hP.leaves (hd ▸ hkeep) hu
      next fault d' hrun =>
        have hd : (ReadM.record (Text.trimEnd line) d).2 = d' := congrArg Prod.snd hrun
        cases fault with
        | refused reason => exact ⟨d', hd ▸ hkeep, Option.some.inj hu⟩
        | numeral e => cases hu

/-- A refusal carries what was read before it. -/
theorem Draft.sofar_of_readLines : ∀ {lines : List (List Char)} {d : Draft} {number line : Nat} {reason : Reason}
    {sofar : Option CompilationUnit}, d.readLines number lines = .error (.refused line reason sofar) →
      ∃ u, sofar = some u
  | [], d, number, line, reason, sofar, h => by
    unfold Draft.readLines at h
    split at h
    · cases h
      exact ⟨_, rfl⟩
    · cases h
  | l :: lines, d, number, line, reason, sofar, h => by
    unfold Draft.readLines at h
    split at h
    · exact sofar_of_readLines h
    · split at h
      · exact sofar_of_readLines h
      next fault _ _ =>
        cases fault with
        | refused _ =>
          cases h
          exact ⟨_, rfl⟩
        | numeral e => cases h

theorem Draft.Invariant.readLines {P : Draft → Prop} (hP : Invariant P) {u : CompilationUnit}
    {lines : List (List Char)} {d : Draft} {number : Nat} (h : P d) (hu : d.readLines number lines = .ok u) :
    ∃ d', P d' ∧ d'.toUnit = u :=
  hP.leaves h (by rw [hu]; rfl)

/-- **Every unit that is read is named.** -/
theorem readBytes_named {path : String} {content : Text.Bytes} {u : CompilationUnit}
    (h : readBytes path content = .ok u) : u.Named := by
  unfold readBytes at h
  split at h
  · exact absurd h (by simp)
  · have hfirst : ({ path, checksum := Digest.checksum content } : Draft).Named :=
      ⟨by simp, List.nodup_nil, by simp, by simp, by simp⟩
    obtain ⟨d, hd, rfl⟩ := Draft.invariant_named.readLines hfirst h
    exact hd.toUnit

/-- A unit bears the checksum of what it was read from. -/
theorem readBytes_checksum {path : String} {content : Text.Bytes} {u : CompilationUnit}
    (h : readBytes path content = .ok u) : u.checksum = Digest.checksum content := by
  unfold readBytes at h
  split at h
  · exact absurd h (by simp)
  · obtain ⟨d, hd, rfl⟩ := (Draft.invariant_labels path (Digest.checksum content)).readLines ⟨rfl, rfl⟩ h
    exact hd.2

end Artifact

end Crossref
