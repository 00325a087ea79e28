/-
What holds of every ledger that merges lead to: an entity is registered once and
claimed at most once, and whatever an artifact says stands beside the record of
the artifact.
-/
import Crossref.Proofs.Ledger

namespace Crossref.Ledger

def Records (L : Ledger) (path : String) : Prop :=
  ∃ a ∈ L.artifacts, a.path = path

/-- Everything is said by an artifact with a record. -/
structure Recorded (L : Ledger) : Prop where
  dependencies : ∀ f ∈ L.dependencies, L.Records f.artifact
  claims : ∀ f ∈ L.claims, L.Records f.artifact
  references : ∀ f ∈ L.references, L.Records f.artifact
  parameters : ∀ f ∈ L.parameters, L.Records f.artifact

/-- Artifacts have a path of their own, entities and claims a key. -/
structure Keyed (L : Ledger) : Prop where
  artifacts : (L.artifacts.map (·.path)).Nodup
  entities : (L.entities.map (·.key)).Nodup
  claims : (L.claims.map (·.key)).Nodup

variable {L : Ledger}

/-! ## Artifacts with a record -/

theorem records_purge {path path' : String} :
    (L.purge path).Records path' ↔ L.Records path' ∧ path' ≠ path := by
  simp only [Records, Ledger.purge, List.mem_filter, decide_eq_true_eq]
  constructor
  · intro h
    obtain ⟨a, ⟨ha, hne⟩, rfl⟩ := h
    exact ⟨⟨a, ha, rfl⟩, hne⟩
  · intro h
    obtain ⟨⟨a, ha, rfl⟩, hne⟩ := h
    exact ⟨a, ⟨ha, hne⟩, rfl⟩

theorem records_touch {path path' : String} {mtime : Int} :
    (L.touch path mtime).Records path' ↔ L.Records path' := by
  simp only [Records, Ledger.touch, List.mem_map]
  constructor
  · intro h
    obtain ⟨_, ⟨a, ha, rfl⟩, rfl⟩ := h
    exact ⟨a, ha, by split <;> rfl⟩
  · intro h
    obtain ⟨a, ha, rfl⟩ := h
    exact ⟨_, ⟨a, ha, rfl⟩, by split <;> rfl⟩

theorem records_write {st : StaleArtifact} {u : CompilationUnit} {path : String} :
    (L.write st u).Records path ↔ L.Records path ∨ path = st.artifact.path := by
  change (L.recordArtifact ⟨st.artifact.path, u.unitName, st.mtime, u.checksum⟩).Records path ↔ _
  unfold Records recordArtifact
  simp only
  split
  next hany =>
    obtain ⟨a₀, ha₀, heq⟩ := List.any_eq_true.1 hany
    simp only [List.mem_map]
    constructor
    · intro h
      obtain ⟨_, ⟨a, ha, rfl⟩, rfl⟩ := h
      split
      · exact .inr rfl
      · exact .inl ⟨a, ha, rfl⟩
    · intro h
      rcases h with ⟨a, ha, rfl⟩ | rfl
      · exact ⟨_, ⟨a, ha, rfl⟩, by split <;> simp [*]⟩
      · exact ⟨_, ⟨a₀, ha₀, rfl⟩, by rw [if_pos (by simpa using heq)]⟩
  next =>
    simp only [List.mem_append, List.mem_singleton]
    constructor
    · intro h
      rcases h with ⟨a, ha | rfl, rfl⟩
      · exact .inl ⟨a, ha, rfl⟩
      · exact .inr rfl
    · intro h
      rcases h with ⟨a, ha, rfl⟩ | rfl
      · exact ⟨a, .inl ha, rfl⟩
      · exact ⟨_, .inr rfl, rfl⟩

theorem Recorded.purge (h : L.Recorded) (path : String) : (L.purge path).Recorded where
  dependencies f hf :=
    have hf := List.mem_filter.1 hf
    records_purge.2 ⟨h.dependencies f hf.1, by simpa using hf.2⟩
  claims f hf :=
    have hf := List.mem_filter.1 hf
    records_purge.2 ⟨h.claims f hf.1, by simpa using hf.2⟩
  references f hf :=
    have hf := List.mem_filter.1 hf
    records_purge.2 ⟨h.references f hf.1, by simpa using hf.2⟩
  parameters f hf :=
    have hf := List.mem_filter.1 hf
    records_purge.2 ⟨h.parameters f hf.1, by simpa using hf.2⟩

theorem Recorded.touch (h : L.Recorded) (path : String) (mtime : Int) :
    (L.touch path mtime).Recorded where
  dependencies f hf := records_touch.2 (h.dependencies f hf)
  claims f hf := records_touch.2 (h.claims f hf)
  references f hf := records_touch.2 (h.references f hf)
  parameters f hf := records_touch.2 (h.parameters f hf)

theorem Recorded.register (h : L.Recorded) (d : Declaration) : (L.register d).Recorded :=
  { h with }

/-- What a unit says is said by its artifact; the rest was there. -/
theorem Recorded.write (h : L.Recorded) (st : StaleArtifact) (u : CompilationUnit) :
    (L.write st u).Recorded where
  dependencies f hf := by
    rcases mem_putAll _ hf with hf | hf
    · exact records_write.2 (.inl (h.dependencies f (List.mem_of_mem_filter hf)))
    · obtain ⟨d, -, rfl⟩ := List.mem_map.1 hf
      exact records_write.2 (.inr rfl)
  claims f hf := by
    rcases mem_putAll _ hf with hf | hf
    · exact records_write.2 (.inl (h.claims f hf))
    · obtain ⟨d, -, rfl⟩ := List.mem_map.1 hf
      exact records_write.2 (.inr rfl)
  references f hf := by
    rcases List.mem_append.1 hf with hf | hf
    · exact records_write.2 (.inl (h.references f hf))
    · obtain ⟨r, -, rfl⟩ := List.mem_map.1 hf
      exact records_write.2 (.inr rfl)
  parameters f hf := by
    rcases mem_putAll _ hf with hf | hf
    · exact records_write.2 (.inl (h.parameters f hf))
    · obtain ⟨p, -, rfl⟩ := List.mem_map.1 hf
      exact records_write.2 (.inr rfl)

theorem Recorded.settle (h : L.Recorded) : L.settle.Recorded :=
  { h with parameters := fun f hf => h.parameters f (List.mem_of_mem_filter hf) }

/-! ## Keys -/

theorem Keyed.touch (h : L.Keyed) (path : String) (mtime : Int) : (L.touch path mtime).Keyed := by
  refine { h with artifacts := ?_ }
  have hpaths : (L.touch path mtime).artifacts.map (·.path) = L.artifacts.map (·.path) := by
    simp only [Ledger.touch, List.map_map]
    refine List.map_congr_left fun a _ => ?_
    simp only [Function.comp_apply]
    split <;> rfl
  rw [hpaths]
  exact h.artifacts

theorem Keyed.register (h : L.Keyed) (d : Declaration) : (L.register d).Keyed := by
  let new : EntityFact := ⟨d.key, d.kind⟩
  have hkeeps (e : EntityFact) (he : e.key = new.key) : { e with kind := d.kind }.key = new.key := he
  exact { h with entities := nodup_replace EntityFact.key hkeeps h.entities }

theorem Keyed.write (h : L.Keyed) (st : StaleArtifact) (u : CompilationUnit) : (L.write st u).Keyed :=
  { h with
    artifacts := nodup_replace ArtifactFact.path (fun _ _ => rfl) h.artifacts
    claims := nodup_putAll _ h.claims }

/-! ## The facts after a merge -/

/-- Purging several artifacts takes out what any of them said. -/
theorem foldl_purge {φ : Type} {g : Ledger → List φ} {artifact : φ → String}
    (h : ∀ L path, g (L.purge path) = (g L).filter fun f => artifact f ≠ path)
    (sts : List StaleArtifact) (L : Ledger) :
    g (sts.foldl (fun L s => L.purge s.artifact.path) L) =
      (g L).filter fun f => artifact f ∉ sts.map (·.artifact.path) := by
  induction sts generalizing L with
  | nil => simp
  | cons st sts ih =>
    rw [List.foldl_cons, ih, h, List.filter_filter]
    refine List.filter_congr fun f _ => ?_
    simp [Bool.and_comm]

/-- What no single change touches, all of them leave alone. -/
theorem foldl_keeps {φ ρ : Type} {g : Ledger → φ} {f : Ledger → ρ → Ledger}
    (hf : ∀ L r, g (f L r) = g L) (rows : List ρ) (L : Ledger) : g (rows.foldl f L) = g L := by
  induction rows generalizing L with
  | nil => rfl
  | cons r rows ih => rw [List.foldl_cons, ih, hf]

/-- The facts of one kind that are left when the units of a batch are written. -/
theorem left_merge {φ : Type} (g : Ledger → List φ) (artifact : φ → String)
    (hpurge : ∀ L path, g (L.purge path) = (g L).filter fun f => artifact f ≠ path)
    (htouch : ∀ L path mtime, g (L.touch path mtime) = g L)
    (hregister : ∀ L d, g (L.register d) = g L) (L : Ledger) (b : ReadBatch)
    (touched : List (String × Int)) (ds : List Declaration) :
    g (ds.foldl register (touched.foldl (fun L t => L.touch t.1 t.2)
        (b.attempted.foldl (fun L s => L.purge s.artifact.path) L))) =
      (g L).filter fun f => artifact f ∉ b.paths := by
  rw [foldl_keeps hregister, foldl_keeps (f := fun L (t : String × Int) => L.touch t.1 t.2)
    fun L t => htouch L t.1 t.2, foldl_purge hpurge]
  rfl

/-- What a write adds to the facts of one kind, all writes add together. -/
theorem foldl_write {φ : Type} (g : Ledger → List φ) (add : List φ → List φ → List φ)
    (said : String → CompilationUnit → List φ) (hadd : ∀ l xs ys, add (add l xs) ys = add l (xs ++ ys))
    (hnil : ∀ l, add l [] = l)
    (h : ∀ L st u, g (L.write st u) = add (g L) (said st.artifact.path u)) (b : ReadBatch)
    (L : Ledger) :
    g (b.parsed.foldl (fun L p => L.write p.1 p.2) L) =
      add (g L) (b.merged.flatMap fun p => said p.1 p.2) := by
  unfold ReadBatch.merged
  generalize b.parsed = parsed
  induction parsed generalizing L with
  | nil => exact (hnil _).symm
  | cons p parsed ih =>
    rw [List.foldl_cons, ih, h, hadd]
    simp

/-- What is said by artifacts of some kind is what their units say. -/
theorem filter_said {φ : Type} {artifact : φ → String} {said : String × CompilationUnit → List φ}
    (h : ∀ p, ∀ f ∈ said p, artifact f = p.1) (P : String → Bool)
    (units : List (String × CompilationUnit)) :
    (units.flatMap said).filter (fun f => P (artifact f)) =
      (units.filter fun p => P p.1).flatMap said := by
  induction units with
  | nil => rfl
  | cons p units ih =>
    rw [List.flatMap_cons, List.filter_append, ih, List.filter_cons]
    by_cases hp : P p.1 = true
    · rw [List.filter_eq_self.2 fun f hf => by rw [h p f hf, hp], if_pos hp, List.flatMap_cons]
    · rw [List.filter_eq_nil_iff.2 fun f hf => by rwa [h p f hf], if_neg hp, List.nil_append]

/-- What some artifacts do not say is what the other units say. -/
theorem filter_flatMap_said {φ : Type} {artifact : φ → String}
    {said : String × CompilationUnit → List φ} (h : ∀ p, ∀ f ∈ said p, artifact f = p.1)
    (units : List (String × CompilationUnit)) (paths : List String) :
    (units.flatMap said).filter (fun f => artifact f ∉ paths) =
      (units.filter fun p => p.1 ∉ paths).flatMap said :=
  filter_said h (fun path => path ∉ paths) units

/-- What the last unit with a property says is the last that is said of the property. -/
theorem isLast_flatMap_said {φ : Type} {artifact : φ → String}
    {said : String × CompilationUnit → List φ} (h : ∀ p, ∀ f ∈ said p, artifact f = p.1)
    {P : φ → Prop} {Q : String × CompilationUnit → Prop} (hQ : ∀ p, (∃ f ∈ said p, P f) ↔ Q p)
    {units : List (String × CompilationUnit)} {path : String} :
    (∃ f, IsLast P (units.flatMap said) f ∧ artifact f = path) ↔
      ∃ u, IsLast Q units (path, u) := by
  induction units using List.reverseRecOn with
  | nil => simp [not_isLast_nil]
  | append_singleton units p ih =>
    have hone : (∃ f, IsLast P (said p) f ∧ artifact f = path) ↔ Q p ∧ p.1 = path := by
      constructor
      · intro hex
        obtain ⟨f, hf, rfl⟩ := hex
        exact ⟨(hQ p).1 ⟨f, hf.mem, hf.1⟩, (h p f hf.mem).symm⟩
      · intro hboth
        obtain ⟨hp, rfl⟩ := hboth
        obtain ⟨f, hf⟩ := exists_isLast ((hQ p).2 hp)
        exact ⟨f, hf, h p f hf.mem⟩
    have hnone : (∀ f ∈ said p, ¬P f) ↔ ¬Q p := by
      rw [← hQ p]
      simp
    have hsplit :
        (∃ f, IsLast P ((units ++ [p]).flatMap said) f ∧ artifact f = path) ↔
        (∃ f, IsLast P (said p) f ∧ artifact f = path) ∨
          (∃ f, IsLast P (units.flatMap said) f ∧ artifact f = path) ∧ ∀ f ∈ said p, ¬P f := by
      simp only [List.flatMap_append, List.flatMap_cons, List.flatMap_nil, List.append_nil,
        isLast_append, or_and_right, exists_or, and_right_comm, exists_and_right]
    rw [hsplit, hone, hnone, ih]
    simp only [isLast_snoc, exists_or, exists_and_right]
    rw [or_comm]
    refine or_congr_right ⟨?_, ?_⟩
    · intro hboth
      obtain ⟨hp, rfl⟩ := hboth
      exact ⟨p.2, hp, rfl⟩
    · intro hex
      obtain ⟨u, hp, rfl⟩ := hex
      exact ⟨hp, rfl⟩

/-- Nothing is said of a property if no unit has it. -/
theorem forall_flatMap_said {φ : Type} {said : String × CompilationUnit → List φ} {P : φ → Prop}
    {Q : String × CompilationUnit → Prop} (hQ : ∀ p, (∃ f ∈ said p, P f) ↔ Q p)
    {units : List (String × CompilationUnit)} :
    (∀ f ∈ units.flatMap said, ¬P f) ↔ ∀ p ∈ units, ¬Q p := by
  constructor
  · intro hall p hp hmem
    obtain ⟨f, hf, hP⟩ := (hQ p).2 hmem
    exact hall f (List.mem_flatMap.2 ⟨p, hp, hf⟩) hP
  · intro hall f hf hP
    obtain ⟨p, hp, hf⟩ := List.mem_flatMap.1 hf
    exact hall p hp ((hQ p).1 ⟨f, hf, hP⟩)

/-- In a slot stands what the last unit said of it, or what stood there if its artifact was not
attempted and no unit says anything of the slot. -/
theorem exists_mem_putAll_said {φ κ : Type} [DecidableEq κ] (slot : φ → κ) {artifact : φ → String}
    {said : String × CompilationUnit → List φ} (h : ∀ p, ∀ f ∈ said p, artifact f = p.1) {s : κ}
    {Q : String × CompilationUnit → Prop} (hQ : ∀ p, (∃ f ∈ said p, slot f = s) ↔ Q p) {old : List φ}
    {b : ReadBatch} {path : String} :
    (∃ f ∈ putAll slot (old.filter fun f => artifact f ∉ b.paths) (b.merged.flatMap said),
        slot f = s ∧ artifact f = path) ↔
      ((∃ f ∈ old, slot f = s ∧ artifact f = path) ∧ path ∉ b.paths ∧ ∀ p ∈ b.merged, ¬Q p) ∨
        ∃ u, IsLast Q b.merged (path, u) := by
  rw [← isLast_flatMap_said (P := (slot · = s)) h hQ, ← forall_flatMap_said (P := (slot · = s)) hQ]
  simp only [mem_putAll_iff, List.mem_filter, decide_eq_true_eq]
  constructor
  · intro hex
    rcases hex with ⟨f, hlast | ⟨⟨hf, hpath⟩, hall⟩, rfl, rfl⟩
    · exact .inr ⟨f, hlast, rfl⟩
    · exact .inl ⟨⟨f, hf, rfl, rfl⟩, hpath, hall⟩
  · intro hor
    rcases hor with ⟨⟨f, hf, rfl, rfl⟩, hpath, hall⟩ | ⟨f, hlast, rfl⟩
    · exact ⟨f, .inr ⟨⟨hf, hpath⟩, hall⟩, rfl, rfl⟩
    · obtain rfl : slot f = s := hlast.1
      exact ⟨f, .inl hlast, rfl, rfl⟩

theorem references_merge (L : Ledger) (b : ReadBatch) (touched : List (String × Int)) :
    (L.merge b touched).references =
      L.references.filter (fun f => f.artifact ∉ b.paths) ++
        b.merged.flatMap fun p => p.2.referenceFacts p.1 := by
  refine (foldl_write references (· ++ ·) (fun path u => u.referenceFacts path) List.append_assoc
    List.append_nil (fun _ _ _ => rfl) b _).trans ?_
  rw [left_merge references (·.artifact) (fun _ _ => rfl) (fun _ _ _ => rfl) fun _ _ => rfl]

theorem claims_merge (L : Ledger) (b : ReadBatch) (touched : List (String × Int)) :
    (L.merge b touched).claims =
      putAll (·.key) (L.claims.filter fun f => f.artifact ∉ b.paths)
        (b.merged.flatMap fun p => p.2.claims p.1) := by
  refine (foldl_write claims (putAll (·.key)) (fun path u => u.claims path)
    (fun l xs ys => (putAll_append _ l xs ys).symm) (putAll_nil _) (fun _ _ _ => rfl) b _).trans ?_
  rw [left_merge claims (·.artifact) (fun _ _ => rfl) (fun _ _ _ => rfl) fun _ _ => rfl]

theorem parameters_merge (L : Ledger) (b : ReadBatch) (touched : List (String × Int)) :
    (L.merge b touched).parameters =
      (putAll (fun p => (p.owner, p.ordinal)) (L.parameters.filter fun f => f.artifact ∉ b.paths)
        (b.merged.flatMap fun p => p.2.parameterFacts p.1)).filter fun f =>
          (L.merge b touched).isClaimed f.owner := by
  refine congrArg (List.filter _) ?_
  refine (foldl_write parameters (putAll fun p => (p.owner, p.ordinal))
    (fun path u => u.parameterFacts path) (fun l xs ys => (putAll_append _ l xs ys).symm)
    (putAll_nil _) (fun _ _ _ => rfl) b _).trans ?_
  rw [left_merge parameters (·.artifact) (fun _ _ => rfl) (fun _ _ _ => rfl) fun _ _ => rfl]

/-- The artifacts with a record: those that were attempted lose it, and those that could be read
get it again. -/
theorem records_merge {b : ReadBatch} {touched : List (String × Int)} {path : String} :
    (L.merge b touched).Records path ↔
      (L.Records path ∧ path ∉ b.paths) ∨ path ∈ b.merged.map (·.1) := by
  have hpurged (sts : List StaleArtifact) (L : Ledger) :
      (sts.foldl (fun L s => L.purge s.artifact.path) L).Records path ↔
        L.Records path ∧ path ∉ sts.map (·.artifact.path) := by
    induction sts generalizing L with
    | nil => simp
    | cons st sts ih =>
      rw [List.foldl_cons, ih, records_purge, List.map_cons, List.mem_cons, not_or, and_assoc]
  have htimed (touched : List (String × Int)) (L : Ledger) :
      (touched.foldl (fun L t => L.touch t.1 t.2) L).Records path ↔ L.Records path := by
    induction touched generalizing L with
    | nil => rfl
    | cons t touched ih => rw [List.foldl_cons, ih, records_touch]
  have hregistered (ds : List Declaration) (L : Ledger) :
      (ds.foldl register L).Records path ↔ L.Records path := by
    induction ds generalizing L with
    | nil => rfl
    | cons d ds ih => exact ih (L.register d)
  have hwritten (parsed : List (StaleArtifact × CompilationUnit)) (L : Ledger) :
      (parsed.foldl (fun L p => L.write p.1 p.2) L).Records path ↔
        L.Records path ∨ path ∈ parsed.map (·.1.artifact.path) := by
    induction parsed generalizing L with
    | nil => simp
    | cons p parsed ih =>
      rw [List.foldl_cons, ih, records_write, List.map_cons, List.mem_cons, or_assoc]
  change Records (List.foldl _ _ b.parsed) path ↔ _
  rw [hwritten, hregistered, htimed, hpurged, ReadBatch.merged, List.map_map]
  rfl

/-! ## Merges -/

/-- **The facts about references are what the units that count say, in the order of the
merges.** -/
theorem Merges.references {batches : List ReadBatch} (h : Merges batches L) :
    L.references = (currentUnits batches).flatMap fun p => p.2.referenceFacts p.1 := by
  induction h with
  | nil => rfl
  | snoc _ ih =>
    rw [references_merge, ih, currentUnits_snoc, supersede, List.flatMap_append, filter_flatMap_said]
    intro p f hf
    obtain ⟨r, -, rfl⟩ := List.mem_map.1 hf
    rfl

/-- An artifact has a record exactly if a unit of it counts. -/
theorem Merges.records_iff {batches : List ReadBatch} (h : Merges batches L) {path : String} :
    L.Records path ↔ path ∈ (currentUnits batches).map (·.1) := by
  induction h with
  | nil => simp [Records, currentUnits]
  | snoc _ ih =>
    rw [records_merge, ih, currentUnits_snoc, supersede, List.map_append, List.mem_append]
    simp only [List.mem_map, List.mem_filter, decide_eq_true_eq]
    refine or_congr_left ⟨?_, ?_⟩
    · intro hex
      obtain ⟨⟨p, hp, rfl⟩, hne⟩ := hex
      exact ⟨p, ⟨hp, hne⟩, rfl⟩
    · intro hex
      obtain ⟨p, ⟨hp, hne⟩, rfl⟩ := hex
      exact ⟨⟨p, hp, rfl⟩, hne⟩

/-- A property of ledgers that every part of a merge keeps. -/
theorem merge_keeps {P : Ledger → Prop} {b : ReadBatch} {touched : List (String × Int)}
    (hpurge : ∀ {L}, P L → ∀ path, P (L.purge path))
    (htouch : ∀ {L}, P L → ∀ t ∈ touched, P (L.touch t.1 t.2))
    (hregister : ∀ {L}, P L → ∀ d, P (L.register d))
    (hwrite : ∀ {L}, P L → ∀ p ∈ b.parsed, P (L.write p.1 p.2)) (hsettle : ∀ {L}, P L → P L.settle)
    (h : P L) : P (L.merge b touched) := by
  have hfold {ρ : Type} {f : Ledger → ρ → Ledger} {rows : List ρ}
      (hf : ∀ {L}, P L → ∀ r ∈ rows, P (f L r)) {L : Ledger} (hL : P L) : P (rows.foldl f L) := by
    induction rows generalizing L with
    | nil => exact hL
    | cons r rows ih => exact ih (fun h r hr => hf h r (by simp [hr])) (hf hL r (by simp))
  exact hsettle (hfold hwrite (hfold (fun hL d _ => hregister hL d)
    (hfold htouch (hfold (fun hL _ _ => hpurge hL _) h))))

theorem Merges.recorded {batches : List ReadBatch} (h : Merges batches L) : L.Recorded := by
  induction h with
  | nil => exact ⟨by simp, by simp, by simp, by simp⟩
  | snoc _ ih =>
    exact merge_keeps (P := Recorded) Recorded.purge (fun h t _ => h.touch t.1 t.2) Recorded.register
      (fun h p _ => h.write p.1 p.2) Recorded.settle ih

theorem Merges.keyed {batches : List ReadBatch} (h : Merges batches L) : L.Keyed := by
  induction h with
  | nil => exact ⟨List.nodup_nil, List.nodup_nil, List.nodup_nil⟩
  | snoc _ ih =>
    refine merge_keeps (P := Keyed) (fun h _ => ?_) (fun h t _ => h.touch t.1 t.2) Keyed.register
      (fun h p _ => h.write p.1 p.2) (fun h => ?_) ih
    · exact { h with
        artifacts := h.artifacts.sublist (List.filter_sublist.map _)
        claims := h.claims.sublist (List.filter_sublist.map _) }
    · exact { h with entities := h.entities.sublist (List.filter_sublist.map _) }

/-- A record after a merge has the checksum of an artifact that was read or of the record that its
path had, and the time of that or a new one. -/
theorem mem_artifacts_merge {b : ReadBatch} {touched : List (String × Int)} {f : ArtifactFact}
    (hf : f ∈ (L.merge b touched).artifacts) :
    ∃ mtime, (mtime = f.mtime ∨ (f.path, f.mtime) ∈ touched) ∧
      ((∃ p ∈ b.parsed, p.1.artifact.path = f.path ∧ p.1.mtime = mtime ∧ p.2.checksum = f.checksum) ∨
        ∃ g ∈ L.artifacts, g.path = f.path ∧ g.mtime = mtime ∧ g.checksum = f.checksum) := by
  let Comes (f : ArtifactFact) : Prop :=
    ∃ mtime, (mtime = f.mtime ∨ (f.path, f.mtime) ∈ touched) ∧
      ((∃ p ∈ b.parsed, p.1.artifact.path = f.path ∧ p.1.mtime = mtime ∧ p.2.checksum = f.checksum) ∨
        ∃ g ∈ L.artifacts, g.path = f.path ∧ g.mtime = mtime ∧ g.checksum = f.checksum)
  suffices hall : ∀ f ∈ (L.merge b touched).artifacts, Comes f from hall f hf
  refine merge_keeps (P := fun M => ∀ f ∈ M.artifacts, Comes f) (fun h path f hf => ?_)
    (fun h t ht f hf => ?_) (fun h d f hf => h f hf) (fun {M} h p hp f hf => ?_) (fun h f hf => h f hf)
    fun f hf => ⟨f.mtime, .inl rfl, .inr ⟨f, hf, rfl, rfl, rfl⟩⟩
  · exact h f (List.mem_of_mem_filter hf)
  · obtain ⟨g, hg, rfl⟩ := List.mem_map.1 hf
    obtain ⟨mtime, htime, hsource⟩ := h g hg
    split
    next hpath => exact ⟨mtime, .inr (hpath ▸ ht), hsource⟩
    next => exact ⟨mtime, htime, hsource⟩
  · have hnew : Comes ⟨p.1.artifact.path, p.2.unitName, p.1.mtime, p.2.checksum⟩ :=
      ⟨p.1.mtime, .inl rfl, .inl ⟨p, hp, rfl, rfl, rfl⟩⟩
    change f ∈ (M.recordArtifact _).artifacts at hf
    unfold recordArtifact at hf
    simp only at hf
    split at hf
    · obtain ⟨g, hg, rfl⟩ := List.mem_map.1 hf
      split
      · exact hnew
      · exact h g hg
    · rcases List.mem_append.1 hf with hf | hf
      · exact h f hf
      · exact List.mem_singleton.1 hf ▸ hnew

/-- After a merge every entity and the owner of every parameter is claimed. -/
structure Claimed (L : Ledger) : Prop where
  entities : ∀ e ∈ L.entities, L.isClaimed e.key = true
  parameters : ∀ p ∈ L.parameters, L.isClaimed p.owner = true

theorem Merges.claimed {batches : List ReadBatch} (h : Merges batches L) : L.Claimed := by
  cases h with
  | nil => exact ⟨by simp, by simp⟩
  | snoc h => exact ⟨fun e he => (List.mem_filter.1 he).2, fun p hp => (List.mem_filter.1 hp).2⟩

end Crossref.Ledger
