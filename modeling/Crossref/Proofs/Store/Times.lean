/-
What the times of updates do to a store. `Contents.untimed` leaves them out: the
time of the last update counts only as being there, and the time at which an
artifact was recorded does not count. `StoreM.Timeless x y` says that `x` and `y`,
started on stores that differ at most in these times, answer the same and leave such
stores again. A statement does so with itself if its change and its answer do not
look at the times.
-/
import Crossref.Proofs.Store.Answers

namespace Crossref

def ArtifactRow.untimed (a : ArtifactRow) : ArtifactRow :=
  { a with indexedAt := 0 }

namespace Contents

/-- The contents without the times of updates. -/
def untimed (c : Contents) : Contents :=
  { c with
    settings := c.settings.map fun s => if s.1 = indexedKey then (s.1, "") else s
    artifacts := c.artifacts.map (·.untimed) }

theorem setting?_isSome_untimed (c : Contents) (key : String) :
    (c.untimed.setting? key).isSome = (c.setting? key).isSome := by
  unfold untimed setting?
  induction c.settings with
  | nil => rfl
  | cons s l ih =>
    obtain ⟨k, v⟩ := s
    by_cases hk : k = indexedKey
    · rw [List.map_cons, if_pos hk, List.lookup_cons, List.lookup_cons]
      cases key == k <;> simp [ih]
    · rw [List.map_cons, if_neg hk, List.lookup_cons, List.lookup_cons]
      cases key == k <;> simp [ih]

/-- The statistics do not say when the last update was. -/
theorem stats_untimed (c : Contents) : c.untimed.stats = c.stats := by
  have hindexed := c.setting?_isSome_untimed indexedKey
  have hartifacts : c.untimed.artifacts.length = c.artifacts.length := List.length_map _
  unfold stats
  rw [hindexed, hartifacts]
  rfl

/-! ## Changes -/

/-- The change does not look at the times. -/
def KeepsTimes (change : Contents → Except RowFault Contents) : Prop :=
  ∀ c, change c.untimed = (change c).map untimed

theorem keepsTimes_ok {change : Contents → Contents} (h : ∀ c, change c.untimed = (change c).untimed) :
    KeepsTimes fun c => .ok (change c) :=
  fun c => congrArg Except.ok (h c)

theorem keepsTimes_numbered {last : Contents → Int} {change : Contents → Except RowFault Contents}
    (hlast : ∀ c, last c.untimed = last c) (h : KeepsTimes change) :
    KeepsTimes fun c => numbered (last c) (change c) := by
  intro c
  dsimp only [numbered]
  rw [hlast]
  split
  · exact h c
  · rfl

theorem keepsTimes_mergeFile (new : FileRecord) : KeepsTimes (·.mergeFile new) := by
  refine keepsTimes_numbered (fun _ => rfl) (keepsTimes_ok fun c => ?_)
  change (if (c.file? new.path).isSome then _ else _) = untimed (if (c.file? new.path).isSome then _ else _)
  split <;> rfl

theorem keepsTimes_ensureFile (path : String) : KeepsTimes (·.ensureFile path) := by
  refine keepsTimes_numbered (fun _ => rfl) (keepsTimes_ok fun c => ?_)
  change (if (c.file? path).isSome then _ else _) = untimed (if (c.file? path).isSome then _ else _)
  split <;> rfl

theorem keepsTimes_putEntity (name kind : String) (fileId line column : Int) :
    KeepsTimes (·.putEntity name kind fileId line column) := by
  refine keepsTimes_numbered (fun _ => rfl) fun c => ?_
  unfold mergedEntity
  change (if (c.entityAt? name fileId line column).isSome then _ else if c.hasFile fileId then _ else _) = _
  split
  · rfl
  · split <;> rfl

/-- A row that is written under a condition. -/
theorem map_untimed_guarded {b : Bool} {c d : Contents} (h : c = d.untimed) :
    (if b then .ok c else .error .foreignKey : Except RowFault Contents) =
      Except.map untimed (if b then .ok d else .error .foreignKey) := by
  split
  · exact congrArg Except.ok h
  · rfl

theorem keepsTimes_putDependency (new : DependencyRow) : KeepsTimes (·.putDependency new) :=
  fun _ => map_untimed_guarded rfl

theorem keepsTimes_putDeclaration (new : DeclarationRow) : KeepsTimes (·.putDeclaration new) :=
  fun _ => map_untimed_guarded rfl

theorem keepsTimes_addReference (new : ReferenceRecord) : KeepsTimes (·.addReference new) :=
  keepsTimes_numbered (fun _ => rfl) fun _ => map_untimed_guarded rfl

theorem keepsTimes_putParameter (new : ParameterRow) : KeepsTimes (·.putParameter new) :=
  fun _ => map_untimed_guarded rfl

theorem keepsTimes_dropOrphans : KeepsTimes dropOrphans :=
  fun _ => map_untimed_guarded rfl

theorem keepsTimes_touchArtifact (fileId mtime : Int) :
    KeepsTimes fun c => .ok (c.touchArtifact fileId mtime) := by
  refine keepsTimes_ok fun c => congrArg (fun artifacts => { c.untimed with artifacts }) ?_
  dsimp only [untimed, touchArtifact]
  rw [List.map_map, List.map_map]
  refine List.map_congr_left fun a _ => ?_
  change (if a.fileId = fileId then _ else _) = ArtifactRow.untimed (if a.fileId = fileId then _ else _)
  split <;> rfl

/-- An artifact that is not there anymore is not there at any time. -/
theorem keepsTimes_dropArtifact (fileId : Int) :
    KeepsTimes fun c => .ok { c with artifacts := c.artifacts.filter (·.fileId ≠ fileId) } := by
  refine keepsTimes_ok fun c => congrArg (fun artifacts => { c.untimed with artifacts }) ?_
  exact List.filter_map

/-- An artifact that is recorded at some time is recorded. -/
theorem recordArtifact_untimed (c : Contents) (new : ArtifactRow) :
    (c.recordArtifact new).map untimed = c.untimed.recordArtifact new.untimed := by
  have hfind : (c.untimed.artifact? new.fileId).isSome = (c.artifact? new.fileId).isSome := by
    unfold artifact?
    rw [List.isSome_find?, List.isSome_find?]
    exact List.any_map
  unfold recordArtifact
  change _ = if (c.untimed.artifact? new.fileId).isSome then _ else if c.hasFile new.fileId then _ else _
  rw [hfind]
  split
  · refine congrArg (fun artifacts => Except.ok { c.untimed with artifacts }) ?_
    dsimp only [untimed]
    rw [List.map_map, List.map_map]
    refine List.map_congr_left fun a _ => ?_
    change ArtifactRow.untimed (if a.fileId = new.fileId then _ else _) = if a.fileId = new.fileId then _ else _
    split <;> rfl
  · split
    · exact congrArg (fun artifacts => Except.ok { c.untimed with artifacts }) List.map_append
    · rfl

/-- The update that is recorded at some time is recorded. -/
theorem setSetting_untimed (c : Contents) (value : String) :
    (c.setSetting indexedKey value).untimed = c.untimed.setSetting indexedKey "" := by
  have hany : (c.untimed.settings.any (·.1 = indexedKey)) = c.settings.any (·.1 = indexedKey) := by
    unfold untimed
    rw [List.any_map]
    refine List.any_congr rfl fun s => ?_
    dsimp only [Function.comp_apply]
    split <;> rfl
  refine congrArg (fun settings => { c.untimed with settings }) ?_
  dsimp only [setSetting]
  rw [hany]
  split
  · dsimp only [untimed]
    rw [List.map_map, List.map_map]
    refine List.map_congr_left fun s _ => ?_
    by_cases hs : s.1 = indexedKey
    · simp [hs]
    · simp [hs]
  · simp [untimed]

end Contents

/-- Two stores that differ at most in times, and no transaction is under way on them. -/
structure Store.AlikeButTimes (s s' : Store) : Prop where
  idle : s.transaction = .idle
  idle' : s'.transaction = .idle
  readOnly : s.readOnly = s'.readOnly
  contents : s.contents.untimed = s'.contents.untimed

theorem Store.AlikeButTimes.tables {s s' : Store} (h : s.AlikeButTimes s') : s.contents.tables = s'.contents.tables := by
  have htables : s.contents.untimed.tables = s'.contents.untimed.tables := congrArg Contents.tables h.contents
  exact htables

namespace StoreM

open Contents

/-- The two operations answer the same and leave the same but for times. -/
structure Timeless {α : Type} (x y : StoreM α) : Prop where
  ends : ∀ {s s' : Store}, s.AlikeButTimes s' → (x s).1 = (y s').1 ∧ (x s).2.AlikeButTimes (y s').2

namespace Timeless

variable {α β ρ : Type}

theorem pure (a : α) : Timeless (pure a) (pure a) :=
  ⟨fun h => ⟨rfl, h⟩⟩

theorem throw (e : Failure) : Timeless (throw e : StoreM α) (throw e) :=
  ⟨fun h => ⟨rfl, h⟩⟩

theorem bind {x y : StoreM α} {f g : α → StoreM β} (hx : Timeless x y) (hf : ∀ a, Timeless (f a) (g a)) :
    Timeless (x >>= f) (y >>= g) where
  ends {s s'} h := by
    have hfirst := hx.ends h
    rw [bind_apply, bind_apply]
    rcases hr : x s with ⟨e | a, s₁⟩ <;> rcases hr' : y s' with ⟨e' | a', s₁'⟩ <;>
      simp only [hr, hr', reduceCtorEq, false_and] at hfirst ⊢
    · exact ⟨congrArg _ (Except.error.inj hfirst.1), hfirst.2⟩
    · obtain rfl := Except.ok.inj hfirst.1
      exact (hf a).ends hfirst.2

theorem composes : Composes fun x => Timeless x x :=
  ⟨pure, bind⟩

theorem forM {f g : ρ → StoreM PUnit} (h : ∀ r, Timeless (f r) (g r)) (rows : List ρ) :
    Timeless (rows.forM f) (rows.forM g) := by
  induction rows with
  | nil => exact pure _
  | cons r rows ih => exact (h r).bind fun _ => ih

theorem get {f g : Store → StoreM β} (h : ∀ {s s' : Store}, s.AlikeButTimes s' → Timeless (f s) (g s')) :
    Timeless (get >>= f) (get >>= g) :=
  ⟨fun hs => (h hs).ends hs⟩

/-! ## Statements -/

theorem needTables (tables : List Table) : Timeless (needTables tables) (needTables tables) := by
  refine get fun {s s'} hs => ?_
  simp only [has, hs.tables]
  split
  · exact throw _
  · exact pure _

theorem needParents (tables : List Table) : Timeless (needParents tables) (needParents tables) := by
  refine get fun {s s'} hs => ?_
  simp only [has, hs.tables]
  split
  · exact throw _
  · exact pure _

theorem needWords (numbers : List Int) : Timeless (needWords numbers) (needWords numbers) := by
  unfold StoreM.needWords
  split
  · exact pure _
  · exact throw _

theorem needWritable : Timeless needWritable needWritable := by
  refine get fun {s s'} hs => ?_
  rw [hs.readOnly]
  split
  · exact throw _
  · exact pure _

theorem start : Timeless (modify Store.start) (modify Store.start) where
  ends {s s'} h := by
    change _ ∧ s.start.AlikeButTimes s'.start
    rw [Store.start_of_idle h.idle, Store.start_of_idle h.idle']
    exact ⟨rfl, h⟩

theorem query (tables : List Table) (numbers : List Int) {answer : Contents → α}
    (h : ∀ c, answer c.untimed = answer c) : Timeless (query tables numbers answer) (query tables numbers answer) := by
  refine (needTables tables).bind fun _ => (needWords numbers).bind fun _ => start.bind fun _ => get fun {s s'} hs => ?_
  rw [← h s.contents, hs.contents, h]
  exact pure _

theorem become {change change' : Contents → Except RowFault Contents}
    (h : ∀ {c c'}, c.untimed = c'.untimed → (change c).map untimed = (change' c').map untimed) :
    Timeless (become change) (become change') where
  ends {s s'} hs := by
    have hchange := h hs.contents
    rw [become_idle hs.idle, become_idle hs.idle']
    rcases hc : change s.contents with fault | c <;> rcases hc' : change' s'.contents with fault' | c' <;>
      rw [hc, hc'] at hchange
    · obtain rfl : fault = fault' := Except.error.inj hchange
      exact ⟨rfl, hs⟩
    · cases hchange
    · cases hchange
    · exact ⟨rfl, hs.idle, hs.idle', hs.readOnly, Except.ok.inj hchange⟩

theorem execute {tables parents : List Table} {numbers : List Int} {change change' : Contents → Except RowFault Contents}
    (h : ∀ {c c'}, c.untimed = c'.untimed → (change c).map untimed = (change' c').map untimed) :
    Timeless (execute tables parents numbers change) (execute tables parents numbers change') :=
  (needTables tables).bind fun _ => (needParents parents).bind fun _ => (needWords numbers).bind fun _ =>
    needWritable.bind fun _ => become h

theorem step (numbers : List Int) {change : Contents → Except RowFault Contents} (h : KeepsTimes change) :
    Timeless (step numbers change) (step numbers change) :=
  (needWords numbers).bind fun _ => needWritable.bind fun _ => become fun {c c'} hc => by rw [← h, hc, h]

theorem execute_same (tables parents : List Table) (numbers : List Int) {change : Contents → Except RowFault Contents}
    (h : KeepsTimes change) :
    Timeless (StoreM.execute tables parents numbers change) (StoreM.execute tables parents numbers change) :=
  (needTables tables).bind fun _ => (needParents parents).bind fun _ => step numbers h

theorem executeAll (tables parents : List Table) (numbers : ρ → List Int)
    {change : ρ → Contents → Except RowFault Contents} (h : ∀ r, KeepsTimes (change r)) (rows : List ρ) :
    Timeless (executeAll tables parents numbers change rows) (executeAll tables parents numbers change rows) :=
  (needTables tables).bind fun _ => (needParents parents).bind fun _ => forM (fun r => step (numbers r) (h r)) rows

theorem changeLinks (tables : List Table) {changes : Contents → Nat} {change : Contents → Contents}
    (hchanges : ∀ c, changes c.untimed = changes c) (h : ∀ c, change c.untimed = (change c).untimed) :
    Timeless (Store.changeLinks tables changes change) (Store.changeLinks tables changes change) := by
  refine (needTables tables).bind fun _ => (needParents _).bind fun _ => get fun {s s'} hs => ?_
  have hcount : changes s.contents = changes s'.contents := by rw [← hchanges, hs.contents, hchanges]
  rw [hcount]
  exact (step [] (keepsTimes_ok h)).bind fun _ => pure _

end Timeless

end StoreM

open StoreM Contents

namespace Store

/-! ## The statements of a store -/

theorem putFile_timeless (new : FileRecord) : Timeless (putFile new) (putFile new) :=
  (Timeless.execute_same _ _ _ (keepsTimes_mergeFile new)).bind fun _ => Timeless.query _ _ fun _ => rfl

theorem ensureFile_timeless (path : String) : Timeless (ensureFile path) (ensureFile path) :=
  (Timeless.execute_same _ _ _ (keepsTimes_ensureFile path)).bind fun _ => Timeless.query _ _ fun _ => rfl

theorem stampFile_timeless (path stamp checksum : String) :
    Timeless (stampFile path stamp checksum) (stampFile path stamp checksum) := by
  refine (ensureFile_timeless path).bind fun id => (Timeless.execute_same _ _ _ ?_).bind fun _ => Timeless.pure id
  exact keepsTimes_ok fun _ => rfl

theorem putEntity_timeless (name kind : String) (fileId line column : Int) :
    Timeless (putEntity name kind fileId line column) (putEntity name kind fileId line column) :=
  (Timeless.execute_same _ _ _ (keepsTimes_putEntity name kind fileId line column)).bind fun _ =>
    Timeless.query _ _ fun _ => rfl

theorem findEntity_timeless (key : EntityKey) : Timeless (findEntity key) (findEntity key) :=
  Timeless.query _ _ fun _ => rfl

theorem recordArtifact_timeless {new new' : ArtifactRow} (hid : new.fileId = new'.fileId)
    (hnew : new.untimed = new'.untimed) : Timeless (recordArtifact new) (recordArtifact new') := by
  unfold recordArtifact
  rw [hid]
  refine Timeless.execute fun {c c'} hc => ?_
  rw [recordArtifact_untimed, recordArtifact_untimed, hc, hnew]

theorem touchArtifact_timeless (fileId mtime : Int) :
    Timeless (touchArtifact fileId mtime) (touchArtifact fileId mtime) :=
  Timeless.execute_same _ _ _ (keepsTimes_touchArtifact fileId mtime)

theorem replaceDependencies_timeless (artifactId : Int) (new : List DependencyRow) :
    Timeless (replaceDependencies artifactId new) (replaceDependencies artifactId new) := by
  refine (Timeless.execute_same _ _ _ ?_).bind fun _ => Timeless.executeAll _ _ _ keepsTimes_putDependency new
  exact keepsTimes_ok fun _ => rfl

theorem purgeArtifact_timeless (artifactId : Int) :
    Timeless (purgeArtifact artifactId) (purgeArtifact artifactId) := by
  refine (Timeless.execute_same _ _ _ ?_).bind fun _ => (Timeless.execute_same _ _ _ ?_).bind fun _ =>
    (Timeless.execute_same _ _ _ ?_).bind fun _ => (Timeless.execute_same _ _ _ ?_).bind fun _ =>
    Timeless.execute_same _ _ _ (keepsTimes_dropArtifact artifactId) <;> exact keepsTimes_ok fun _ => rfl

theorem putDeclarations_timeless (new : List DeclarationRow) : Timeless (putDeclarations new) (putDeclarations new) :=
  Timeless.executeAll _ _ _ keepsTimes_putDeclaration new

theorem addReferences_timeless (new : List ReferenceRecord) : Timeless (addReferences new) (addReferences new) :=
  Timeless.executeAll _ _ _ keepsTimes_addReference new

theorem putParameters_timeless (new : List ParameterRow) : Timeless (putParameters new) (putParameters new) :=
  Timeless.executeAll _ _ _ keepsTimes_putParameter new

theorem detachUndeclared_timeless : Timeless detachUndeclared detachUndeclared := by
  refine (Timeless.changeLinks _ ?_ ?_).bind fun _ => (Timeless.changeLinks _ ?_ ?_).bind fun _ =>
    (Timeless.changeLinks _ ?_ ?_).bind fun _ => (Timeless.execute_same _ _ _ (keepsTimes_ok ?_)).bind fun _ =>
    Timeless.pure _ <;> exact fun _ => rfl

theorem pruneOrphans_timeless : Timeless pruneOrphans pruneOrphans := by
  refine (Timeless.needTables _).bind fun _ => (Timeless.needParents _).bind fun _ => Timeless.get fun {s s'} hs => ?_
  have hcount : s.contents.untimed.orphans = s'.contents.untimed.orphans := congrArg orphans hs.contents
  change s.contents.orphans = s'.contents.orphans at hcount
  rw [hcount]
  exact (Timeless.step [] keepsTimes_dropOrphans).bind fun _ => Timeless.pure _

theorem relinkPending_timeless : Timeless relinkPending relinkPending := by
  refine (Timeless.changeLinks _ ?_ ?_).bind fun _ => (Timeless.changeLinks _ ?_ ?_).bind fun _ =>
    (Timeless.changeLinks _ ?_ ?_).bind fun _ => Timeless.pure _ <;> exact fun _ => rfl

theorem markIndexed_timeless (now now' : Int) : Timeless (markIndexed now) (markIndexed now') := by
  refine Timeless.execute fun {c c'} hc => congrArg Except.ok ?_
  rw [setSetting_untimed, setSetting_untimed, hc]

end Store

end Crossref
