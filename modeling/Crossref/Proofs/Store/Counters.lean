/-
How many ids an operation takes. `StoreM.Takes x n Q` says that `x` takes at most
`n` ids from each counter, whether it succeeds or fails and whatever the store
holds, that `Q` holds of its answer, and that it finds no id left only where some
counter has fewer than `n` of them. Statements that record a file, an entity or a
reference take one id; all others take none.
-/
import Mathlib.Algebra.Ring.Nat
import Crossref.Proofs.Store.Acts
import Crossref.Proofs.Store.Sound

namespace Crossref

/-- Between `c` and `c'` at most `n` ids were taken from each counter. -/
structure Contents.Took (c c' : Contents) (n : Nat) : Prop where
  files : c'.lastFile ≤ c.lastFile + n
  entities : c'.lastEntity ≤ c.lastEntity + n
  references : c'.lastReference ≤ c.lastReference + n

/-- Some counter has fewer than `n` ids left. -/
def Contents.Lacks (c : Contents) (n : Nat) : Prop :=
  largestId < c.lastFile + n ∨ largestId < c.lastEntity + n ∨ largestId < c.lastReference + n

instance (c : Contents) (n : Nat) : Decidable (c.Lacks n) :=
  inferInstanceAs (Decidable (_ ∨ _ ∨ _))

theorem Contents.Lacks.mono {c : Contents} {n m : Nat} (h : c.Lacks n) (hn : n ≤ m) : c.Lacks m := by
  unfold Lacks at h ⊢
  omega

namespace Contents.Took

variable {c c' c'' : Contents} {n m : Nat}

theorem of_eq (hf : c'.lastFile = c.lastFile) (he : c'.lastEntity = c.lastEntity)
    (hr : c'.lastReference = c.lastReference) : c.Took c' n :=
  ⟨by omega, by omega, by omega⟩

theorem refl (c : Contents) : c.Took c n :=
  of_eq rfl rfl rfl

theorem file (hf : c'.lastFile = c.lastFile + 1) (he : c'.lastEntity = c.lastEntity)
    (hr : c'.lastReference = c.lastReference) : c.Took c' 1 :=
  ⟨by omega, by omega, by omega⟩

theorem entity (hf : c'.lastFile = c.lastFile) (he : c'.lastEntity = c.lastEntity + 1)
    (hr : c'.lastReference = c.lastReference) : c.Took c' 1 :=
  ⟨by omega, by omega, by omega⟩

theorem reference (hf : c'.lastFile = c.lastFile) (he : c'.lastEntity = c.lastEntity)
    (hr : c'.lastReference = c.lastReference + 1) : c.Took c' 1 :=
  ⟨by omega, by omega, by omega⟩

theorem trans (h₁ : c.Took c' n) (h₂ : c'.Took c'' m) : c.Took c'' (n + m) where
  files := by
    have h₁ := h₁.files
    have h₂ := h₂.files
    omega
  entities := by
    have h₁ := h₁.entities
    have h₂ := h₂.entities
    omega
  references := by
    have h₁ := h₁.references
    have h₂ := h₂.references
    omega

theorem mono (h : c.Took c' n) (hn : n ≤ m) : c.Took c' m where
  files := by
    have h := h.files
    omega
  entities := by
    have h := h.entities
    omega
  references := by
    have h := h.references
    omega

/-- What is lacking after `n` ids were taken was lacking before. -/
theorem lacks (h : c.Took c' n) (hl : c'.Lacks m) : c.Lacks (n + m) := by
  have hf := h.files
  have he := h.entities
  have hr := h.references
  unfold Lacks at hl ⊢
  omega

end Contents.Took

/-- Nothing can always be given. -/
theorem Contents.Sound.not_lacks_nothing {c : Contents} (h : c.Sound) : ¬c.Lacks 0 := by
  have hf := h.lastFile_le
  have he := h.lastEntity_le
  have hr := h.lastReference_le
  unfold Lacks
  omega

/-- The change takes at most `n` ids, and there is no room for it only where they are not left. -/
structure Contents.Counts (change : Contents → Except RowFault Contents) (n : Nat) : Prop where
  took : ∀ {c c'}, change c = .ok c' → c.Took c' n
  lacks : ∀ {c}, change c = .error .full → c.Lacks n

namespace Contents.Counts

variable {change : Contents → Except RowFault Contents} {n : Nat}

theorem of_ok {change : Contents → Contents} (h : ∀ c : Contents, c.Took (change c) n) : Counts (fun c => .ok (change c)) n :=
  ⟨fun heq => Except.ok.inj heq ▸ h _, nofun⟩

/-- An insertion takes one id. -/
theorem numbered (last : Contents → Int) (hlast : ∀ c, largestId ≤ last c → c.Lacks 1) (h : Counts change 1) :
    Counts (fun c => Contents.numbered (last c) (change c)) 1 where
  took heq := h.took (numbered_ok heq).2
  lacks {c} heq := by
    unfold Contents.numbered at heq
    split at heq
    next => exact h.lacks heq
    next hroom => exact hlast c (Int.not_lt.1 hroom)

end Contents.Counts

namespace StoreM

/-- Started on `s`, the operation takes at most `n` ids, and there is no room for it only if they are not left. -/
def TakesFrom (s : Store) {α : Type} (x : StoreM α) (n : Nat) (Q : α → Prop) : Prop :=
  (x s).2.transaction = .idle ∧ s.contents.Took (x s).2.contents n ∧
    match (x s).1 with
    | .ok a => Q a
    | .error e => e = .row .full → s.contents.Lacks n

structure Takes {α : Type} (x : StoreM α) (n : Nat) (Q : α → Prop) : Prop where
  takesFrom : ∀ {s : Store}, s.transaction = .idle → TakesFrom s x n Q

namespace Takes

variable {α β σ ρ : Type} {n m : Nat} {Q : α → Prop} {R : β → Prop}

theorem pure {a : α} (h : Q a) : Takes (pure a) n Q :=
  ⟨fun hs => ⟨hs, .refl _, h⟩⟩

theorem throw {e : Failure} (hroom : e ≠ .row .full) : Takes (throw e : StoreM α) n Q :=
  ⟨fun hs => ⟨hs, .refl _, fun he => absurd he hroom⟩⟩

theorem took {x : StoreM α} (h : Takes x n Q) {s : Store} (hs : s.transaction = .idle) :
    s.contents.Took (x s).2.contents n :=
  (h.takesFrom hs).2.1

/-- An operation for which there is no room needed more ids than were left. -/
theorem lacks {x : StoreM α} (h : Takes x n Q) {s : Store} (hs : s.transaction = .idle)
    (hx : (x s).1 = .error (.row .full)) : s.contents.Lacks n := by
  have hend := (h.takesFrom hs).2.2
  rw [hx] at hend
  exact hend rfl

theorem mono {x : StoreM α} {Q' : α → Prop} (h : Takes x n Q) (hn : n ≤ m) (hQ : ∀ a, Q a → Q' a) :
    Takes x m Q' := by
  refine ⟨fun {s} hs => ?_⟩
  obtain ⟨hidle, htook, hend⟩ := h.takesFrom hs
  refine ⟨hidle, htook.mono hn, ?_⟩
  cases hx : (x s).1 with
  | ok a =>
    rw [hx] at hend
    exact hQ a hend
  | error e =>
    rw [hx] at hend
    exact fun he => (hend he).mono hn

theorem bind {x : StoreM α} {f : α → StoreM β} (hx : Takes x n Q) (hf : ∀ a, Q a → Takes (f a) m R) :
    Takes (x >>= f) (n + m) R := by
  refine ⟨fun {s} hs => ?_⟩
  have hfirst := hx.takesFrom hs
  unfold TakesFrom at hfirst ⊢
  rw [bind_apply]
  rcases hr : x s with ⟨e | a, s'⟩ <;> simp only [hr] at hfirst ⊢
  · obtain ⟨hidle, htook, hroom⟩ := hfirst
    exact ⟨hidle, htook.mono (Nat.le_add_right n m), fun he => (hroom he).mono (Nat.le_add_right n m)⟩
  · obtain ⟨hidle, htook, ha⟩ := hfirst
    obtain ⟨hidle', htook', hend⟩ := (hf a ha).takesFrom hidle
    refine ⟨hidle', htook.trans htook', ?_⟩
    cases hx' : (f a s').1 with
    | ok b =>
      rw [hx'] at hend
      exact hend
    | error e =>
      rw [hx'] at hend
      exact fun he => htook.lacks (hend he)

/-- What comes first takes no id. -/
theorem after {x : StoreM α} {f : α → StoreM β} (hx : Takes x 0 Q) (hf : ∀ a, Q a → Takes (f a) n R) :
    Takes (x >>= f) n R :=
  Nat.zero_add n ▸ hx.bind hf

/-- What comes last takes no id. -/
theorem before {x : StoreM α} {f : α → StoreM β} (hx : Takes x n Q) (hf : ∀ a, Q a → Takes (f a) 0 R) :
    Takes (x >>= f) n R :=
  hx.bind hf

/-- What is put together of operations that take no id takes none. -/
theorem composes : Composes fun x => Takes x 0 fun _ => True :=
  ⟨fun _ => pure trivial, fun hx hf => hx.after fun a _ => hf a⟩

theorem get {f : Store → StoreM β} (hf : ∀ s, Takes (f s) n R) : Takes (get >>= f) n R :=
  ⟨fun {s} hs => (hf s).takesFrom hs⟩

theorem lift_state {x : StoreM α} (hx : Takes x n Q) (a : σ) :
    Takes ((liftM x : StateT σ StoreM α) a) n fun r => Q r.1 :=
  hx.before fun _ h => pure h

/-! ## Loops -/

theorem forM {f : ρ → StoreM PUnit} (cost : ρ → Nat) {rows : List ρ}
    (hf : ∀ r ∈ rows, Takes (f r) (cost r) fun _ => True) :
    Takes (rows.forM f) (rows.map cost).sum fun _ => True := by
  induction rows with
  | nil => exact pure trivial
  | cons r rows ih =>
    rw [List.map_cons, List.sum_cons]
    exact (hf r (by simp)).bind fun _ _ => ih fun r' hr' => hf r' (by simp [hr'])

theorem foldlM {f : σ → ρ → StoreM σ} (hf : ∀ a r, Takes (f a r) n fun _ => True)
    (rows : List ρ) (a : σ) : Takes (rows.foldlM f a) (rows.length * n) fun _ => True := by
  induction rows generalizing a with
  | nil => exact pure trivial
  | cons r rows ih =>
    rw [List.foldlM_cons, List.length_cons, Nat.succ_mul, Nat.add_comm]
    exact (hf a r).bind fun a' _ => ih a'

theorem mapM {f : ρ → StoreM α} {P : ρ → α → Prop} (hf : ∀ r, Takes (f r) n (P r)) (rows : List ρ) :
    Takes (rows.mapM f) (rows.length * n) (List.Forall₂ P rows) := by
  induction rows with
  | nil => exact pure .nil
  | cons r rows ih =>
    rw [List.mapM_cons, List.length_cons, Nat.succ_mul, Nat.add_comm]
    exact (hf r).bind fun a ha => ih.before fun out hout => pure (.cons ha hout)

theorem mapM_state {f : ρ → StateT σ StoreM α} {P : ρ → α → Prop}
    (hf : ∀ r a, Takes (f r a) n fun b => P r b.1) (rows : List ρ) (a : σ) :
    Takes (rows.mapM f a) (rows.length * n) fun out => List.Forall₂ P rows out.1 := by
  induction rows generalizing a with
  | nil => exact pure .nil
  | cons r rows ih =>
    rw [List.mapM_cons, List.length_cons, Nat.succ_mul, Nat.add_comm]
    exact (hf r a).bind fun b hb => (ih b.2).before fun out hout => pure (.cons hb hout)

theorem option_state {f : ρ → StateT σ StoreM α} {o : Option ρ}
    (hf : ∀ r a, Takes (f r a) n fun _ => True) (a : σ) : Takes (o.mapM f a) n fun _ => True := by
  cases o with
  | none => exact pure trivial
  | some r => exact (hf r a).before fun _ _ => pure trivial

/-! ## Statements -/

theorem needTables (tables : List Table) : Takes (needTables tables) 0 fun _ => True := by
  refine get fun s => ?_
  dsimp only
  split
  · exact throw nofun
  · exact pure trivial

theorem needParents (tables : List Table) : Takes (needParents tables) 0 fun _ => True := by
  refine get fun s => ?_
  dsimp only
  split
  · exact throw nofun
  · exact pure trivial

theorem needWords (numbers : List Int) : Takes (needWords numbers) 0 fun _ => True := by
  unfold StoreM.needWords
  split
  · exact pure trivial
  · exact throw nofun

theorem start : Takes (modify Store.start) 0 fun _ => True :=
  ⟨fun hs => ⟨(congrArg Store.transaction (Store.start_of_idle hs)).trans hs, .refl _, trivial⟩⟩

theorem query (tables : List Table) (numbers : List Int) (answer : Contents → α) :
    Takes (query tables numbers answer) 0 fun _ => True :=
  (needTables tables).after fun _ _ => (needWords numbers).after fun _ _ => start.after fun _ _ =>
    get fun _ => pure trivial

theorem become {change : Contents → Except RowFault Contents} (h : Contents.Counts change n) :
    Takes (become change) n fun _ => True := by
  refine ⟨fun {s} hs => ?_⟩
  unfold TakesFrom
  rw [become_idle hs]
  cases hc : change s.contents with
  | ok c => exact ⟨hs, h.took hc, trivial⟩
  | error fault => exact ⟨hs, .refl _, fun he => h.lacks (Failure.row.inj he ▸ hc)⟩

theorem step {numbers : List Int} {change : Contents → Except RowFault Contents} (h : Contents.Counts change n) :
    Takes (step numbers change) n fun _ => True := by
  refine (needWords numbers).after fun _ _ => ?_
  have hwritable : Takes needWritable 0 fun _ => True := get fun s => by
    split
    · exact throw nofun
    · exact pure trivial
  exact hwritable.after fun _ _ => become h

theorem execute {tables parents : List Table} {numbers : List Int} {change : Contents → Except RowFault Contents}
    (h : Contents.Counts change n) : Takes (execute tables parents numbers change) n fun _ => True :=
  (needTables tables).after fun _ _ => (needParents parents).after fun _ _ => step h

/-- A statement that leaves the counters alone takes no id. -/
theorem execute_free {tables parents : List Table} {numbers : List Int} {change : Contents → Contents}
    (h : ∀ c : Contents, c.Took (change c) 0) :
    Takes (StoreM.execute tables parents numbers fun c => .ok (change c)) 0 fun _ => True :=
  execute (.of_ok h)

theorem executeAll {tables parents : List Table} {numbers : ρ → List Int}
    {change : ρ → Contents → Except RowFault Contents} {rows : List ρ} (h : ∀ r, Contents.Counts (change r) n) :
    Takes (executeAll tables parents numbers change rows) (rows.length * n) fun _ => True := by
  refine (needTables tables).after fun _ _ => (needParents parents).after fun _ _ => ?_
  have hrows : Takes (rows.forM fun r => StoreM.step (numbers r) (change r)) (rows.map fun _ => n).sum
      fun _ => True := forM _ fun r _ => step (h r)
  simpa using hrows

end Takes

end StoreM

open StoreM

/-! ## The statements of a store -/

namespace Contents

theorem lacks_of_file (c : Contents) (h : largestId ≤ c.lastFile) : c.Lacks 1 :=
  .inl (by omega)

theorem counts_mergeFile (new : FileRecord) : Counts (·.mergeFile new) 1 := by
  refine .numbered (·.lastFile) lacks_of_file (.of_ok fun c => ?_)
  unfold mergedFile
  split
  · exact .file rfl rfl rfl
  · exact .file rfl rfl rfl

theorem counts_ensureFile (path : String) : Counts (·.ensureFile path) 1 := by
  refine .numbered (·.lastFile) lacks_of_file (.of_ok fun c => ?_)
  unfold ensuredFile
  split
  · exact .file rfl rfl rfl
  · exact .file rfl rfl rfl

theorem counts_putEntity (name kind : String) (fileId line column : Int) :
    Counts (·.putEntity name kind fileId line column) 1 := by
  refine .numbered (·.lastEntity) (fun c h => .inr (.inl (by omega))) ⟨fun {c c'} h => ?_, fun {c} h => ?_⟩
  · unfold mergedEntity at h
    split at h
    · exact Except.ok.inj h ▸ .entity rfl rfl rfl
    · split at h
      · exact Except.ok.inj h ▸ .entity rfl rfl rfl
      · cases h
  · unfold mergedEntity at h
    split at h
    · cases h
    · split at h <;> cases h

/-- A row that is written under a condition. -/
theorem counts_guarded {b : Contents → Bool} {d : Contents → Contents} {n : Nat} (h : ∀ c : Contents, c.Took (d c) n) :
    Counts (fun c => if b c then .ok (d c) else .error .foreignKey) n where
  took {c c'} heq := by
    split at heq
    · exact Except.ok.inj heq ▸ h c
    · cases heq
  lacks {c} heq := by
    split at heq <;> cases heq

theorem counts_addReference (new : ReferenceRecord) : Counts (·.addReference new) 1 :=
  .numbered (·.lastReference) (fun c h => .inr (.inr (by omega)))
    (counts_guarded fun _ => .reference rfl rfl rfl)

theorem counts_recordArtifact (new : ArtifactRow) : Counts (·.recordArtifact new) 0 where
  took {c c'} h := by
    unfold recordArtifact at h
    split at h
    · exact Except.ok.inj h ▸ .of_eq rfl rfl rfl
    · split at h
      · exact Except.ok.inj h ▸ .of_eq rfl rfl rfl
      · cases h
  lacks {c} h := by
    unfold recordArtifact at h
    split at h
    · cases h
    · split at h <;> cases h

end Contents

namespace Store

theorem putFile_takes (new : FileRecord) : Takes (putFile new) 1 fun _ => True :=
  (Takes.execute (Contents.counts_mergeFile new)).before fun _ _ => Takes.query _ _ _

theorem ensureFile_takes (path : String) : Takes (ensureFile path) 1 fun _ => True :=
  (Takes.execute (Contents.counts_ensureFile path)).before fun _ _ => Takes.query _ _ _

theorem stampFile_takes (path stamp checksum : String) :
    Takes (stampFile path stamp checksum) 1 fun _ => True := by
  refine (ensureFile_takes path).before fun id _ => Takes.after (Takes.execute_free fun c => ?_) fun _ _ => Takes.pure trivial
  exact .of_eq rfl rfl rfl

theorem putEntity_takes (name kind : String) (fileId line column : Int) :
    Takes (putEntity name kind fileId line column) 1 fun _ => True :=
  (Takes.execute (Contents.counts_putEntity name kind fileId line column)).before fun _ _ => Takes.query _ _ _

theorem recordArtifact_takes (new : ArtifactRow) : Takes (recordArtifact new) 0 fun _ => True :=
  Takes.execute (Contents.counts_recordArtifact new)

theorem touchArtifact_takes (fileId mtime : Int) :
    Takes (touchArtifact fileId mtime) 0 fun _ => True :=
  Takes.execute_free fun _ => .of_eq rfl rfl rfl

theorem dropDependencies_takes (artifactId : Int) :
    Takes (StoreM.execute [.dependencies] [.files] [artifactId]
      fun c => .ok (c.dropDependencies artifactId)) 0 fun _ => True :=
  Takes.execute_free fun _ => .of_eq rfl rfl rfl

theorem replaceDependencies_takes (artifactId : Int) (new : List DependencyRow) :
    Takes (replaceDependencies artifactId new) 0 fun _ => True := by
  refine (dropDependencies_takes artifactId).after fun _ _ => ?_
  exact Nat.mul_zero new.length ▸ Takes.executeAll fun _ => Contents.counts_guarded fun _ => .of_eq rfl rfl rfl

theorem putDeclarations_takes (new : List DeclarationRow) :
    Takes (putDeclarations new) 0 fun _ => True :=
  Nat.mul_zero new.length ▸ Takes.executeAll fun _ => Contents.counts_guarded fun _ => .of_eq rfl rfl rfl

theorem addReferences_takes (new : List ReferenceRecord) : Takes (addReferences new) new.length fun _ => True := by
  have hrows : Takes (addReferences new) (new.length * 1) fun _ => True :=
    Takes.executeAll Contents.counts_addReference
  rwa [Nat.mul_one] at hrows

theorem putParameters_takes (new : List ParameterRow) : Takes (putParameters new) 0 fun _ => True :=
  Nat.mul_zero new.length ▸ Takes.executeAll fun _ => Contents.counts_guarded fun _ => .of_eq rfl rfl rfl

theorem purgeArtifact_takes (artifactId : Int) : Takes (purgeArtifact artifactId) 0 fun _ => True := by
  refine Takes.after (Takes.execute_free fun _ => .of_eq rfl rfl rfl) fun _ _ => ?_
  refine Takes.after (Takes.execute_free fun _ => .of_eq rfl rfl rfl) fun _ _ => ?_
  refine Takes.after (Takes.execute_free fun _ => .of_eq rfl rfl rfl) fun _ _ => ?_
  exact (dropDependencies_takes artifactId).after fun _ _ => Takes.execute_free fun _ => .of_eq rfl rfl rfl

theorem changeLinks_takes {tables : List Table} {changes : Contents → Nat}
    {change : Contents → Contents} (h : ∀ c : Contents, c.Took (change c) 0) :
    Takes (changeLinks tables changes change) 0 fun _ => True := by
  refine (Takes.needTables _).after fun _ _ => (Takes.needParents _).after
    fun _ _ => Takes.get fun s => ?_
  exact (Takes.step (.of_ok h)).after fun _ _ => Takes.pure trivial

theorem detachUndeclared_takes : Takes detachUndeclared 0 fun _ => True := by
  refine Takes.after (changeLinks_takes fun _ => .of_eq rfl rfl rfl) fun _ _ => ?_
  refine Takes.after (changeLinks_takes fun _ => .of_eq rfl rfl rfl) fun _ _ => ?_
  refine Takes.after (changeLinks_takes fun _ => .of_eq rfl rfl rfl) fun _ _ => ?_
  exact Takes.after (Takes.execute_free fun _ => .of_eq rfl rfl rfl) fun _ _ => Takes.pure trivial

theorem pruneOrphans_takes : Takes pruneOrphans 0 fun _ => True := by
  refine (Takes.needTables _).after fun _ _ => (Takes.needParents _).after
    fun _ _ => Takes.get fun s => ?_
  exact Takes.after (Takes.step (Contents.counts_guarded fun _ => .of_eq rfl rfl rfl)) fun _ _ => Takes.pure trivial

theorem relinkPending_takes : Takes relinkPending 0 fun _ => True := by
  refine Takes.after (changeLinks_takes fun _ => .of_eq rfl rfl rfl) fun _ _ => ?_
  refine Takes.after (changeLinks_takes fun _ => .of_eq rfl rfl rfl) fun _ _ => ?_
  exact Takes.after (changeLinks_takes fun _ => .of_eq rfl rfl rfl) fun _ _ => Takes.pure trivial

theorem markIndexed_takes (now : Int) : Takes (markIndexed now) 0 fun _ => True := by
  refine Takes.execute_free fun c => ?_
  unfold Contents.setSetting
  exact .of_eq rfl rfl rfl

end Store

end Crossref
