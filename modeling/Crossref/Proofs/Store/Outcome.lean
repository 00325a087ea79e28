/-
How an operation on a store ends. `Ends s x c ok bad` says of an operation `x` on
the store `s` holding the contents `c`, where no transaction is under way: it
touches nothing but the contents, and what it answers and leaves fulfils `ok`, or
what it raises and leaves fulfils `bad`. The rules follow the way operations are
put together; a loop needs an invariant.
-/
import Mathlib.Data.List.Forall2
import Crossref.Store.Basic

namespace Crossref

/-- The store with other contents, open for writing, and without a transaction. -/
def Store.holding (s : Store) (c : Contents) : Store :=
  { s with contents := c, readOnly := false, transaction := .idle }

@[simp] theorem Store.holding_contents (s : Store) (c : Contents) : (s.holding c).contents = c := rfl

@[simp] theorem Store.contents_start (s : Store) : s.start.contents = s.contents := rfl

theorem Store.start_start (s : Store) : s.start.start = s.start := by
  rcases s with ⟨_, _, _, _, _ | _ | _⟩ <;> rfl

theorem Store.start_of_idle {s : Store} (h : s.transaction = .idle) : s.start = s := by
  cases s
  cases h
  rfl

theorem Store.takeBack_of_idle {s : Store} (h : s.transaction = .idle) : s.takeBack = s := by
  cases s
  cases h
  rfl

/-- An insertion that is possible has an id left. -/
theorem Contents.numbered_ok {last : Int} {inserted : Except RowFault Contents} {c : Contents}
    (h : numbered last inserted = .ok c) : last < largestId ∧ inserted = .ok c := by
  unfold numbered at h
  split at h
  next hroom => exact ⟨hroom, h⟩
  next => cases h

theorem Contents.mergeFile_ok {c c' : Contents} {new : FileRecord} (h : c.mergeFile new = .ok c') :
    c' = c.mergedFile new :=
  (Except.ok.inj (numbered_ok h).2).symm

theorem Contents.ensureFile_ok {c c' : Contents} {path : String} (h : c.ensureFile path = .ok c') :
    c' = c.ensuredFile path :=
  (Except.ok.inj (numbered_ok h).2).symm

/-- Every table is there. -/
structure Contents.Complete (c : Contents) : Prop where
  has : ∀ t, c.has t = true

namespace StoreM

def Ends (s : Store) {α : Type} (x : StoreM α) (c : Contents) (ok : α → Contents → Prop)
    (bad : Failure → Contents → Prop) : Prop :=
  match x (s.holding c) with
  | (.ok a, s') => ∃ c', s' = s.holding c' ∧ ok a c'
  | (.error e, s') => ∃ c', s' = s.holding c' ∧ bad e c'

variable {s : Store} {α β σ : Type} {c : Contents} {bad : Failure → Contents → Prop}

theorem bind_apply (x : StoreM α) (f : α → StoreM β) (s : Store) :
    (x >>= f) s =
      match x s with
      | (.ok a, s) => f a s
      | (.error e, s) => (.error e, s) := by
  change (ExceptT.bind x f : ExceptT Failure (StateM Store) β) s = _
  unfold ExceptT.bind ExceptT.mk ExceptT.bindCont
  simp only [bind, StateT.bind]
  rcases x s with ⟨_ | _, _⟩ <;> rfl

theorem get_apply {α : Type} (f : Store → StoreM α) (s : Store) : (get >>= f) s = f s s := rfl

theorem modify_apply {α : Type} (g : Store → Store) (f : PUnit → StoreM α) (s : Store) :
    (modify g >>= f) s = f ⟨⟩ (g s) := rfl

theorem tryCatch_apply {α : Type} (x : StoreM α) (f : Failure → StoreM α) (s : Store) :
    tryCatch x f s =
      match x s with
      | (.ok a, s) => (.ok a, s)
      | (.error e, s) => f e s := by
  change (ExceptT.tryCatch x f : ExceptT Failure (StateM Store) α) s = _
  unfold ExceptT.tryCatch ExceptT.mk
  simp only [bind, StateT.bind]
  rcases x s with ⟨_ | _, _⟩ <;> rfl

/-- A failure may be put in other words. -/
theorem throwing_apply {α : Type} (x : StoreM α) (g : Failure → Failure) (s : Store) :
    (tryCatch x fun e => throw (g e) : StoreM α) s =
      match x s with
      | (.ok a, s) => (.ok a, s)
      | (.error e, s) => (.error (g e), s) :=
  tryCatch_apply x _ s

theorem become_ok {change : Contents → Except RowFault Contents} {s : Store} {c : Contents}
    (h : change s.contents = .ok c) : become change s = (.ok ⟨⟩, { s.start with contents := c }) := by
  rw [become, modify_apply, get_apply, show change s.start.contents = .ok c from h]
  rfl

theorem become_full {change : Contents → Except RowFault Contents} {s : Store}
    (h : change s.contents = .error .full) : become change s = (.error (.row .full), s.start.takeBack) := by
  rw [become, modify_apply, get_apply, show change s.start.contents = .error .full from h]
  rfl

theorem become_error {change : Contents → Except RowFault Contents} {s : Store} {fault : RowFault}
    (h : change s.contents = .error fault) (hroom : fault ≠ .full) :
    become change s = (.error (.row fault), s.start) := by
  rw [become, modify_apply, get_apply, show change s.start.contents = .error fault from h]
  cases fault <;> first | rfl | exact absurd rfl hroom

theorem become_refuses {change : Contents → Except RowFault Contents} {s : Store} {fault : RowFault}
    (h : change s.contents = .error fault) : (become change s).1 = .error (.row fault) := by
  by_cases hfull : fault = .full
  · subst hfull
    rw [become_full h]
  · rw [become_error h hfull]

/-- Without a transaction there is nothing to start and nothing to take back. -/
theorem become_idle {change : Contents → Except RowFault Contents} {s : Store} (hs : s.transaction = .idle) :
    become change s = match change s.contents with
      | .ok c => (.ok ⟨⟩, { s with contents := c })
      | .error fault => (.error (.row fault), s) := by
  cases hc : change s.contents with
  | ok c => rw [become_ok hc, Store.start_of_idle hs]
  | error fault =>
    by_cases hfull : fault = .full
    · subst hfull
      rw [become_full hc, Store.start_of_idle hs, Store.takeBack_of_idle hs]
    · rw [become_error hc hfull, Store.start_of_idle hs]

theorem get_bind_apply (f : σ → StateT σ StoreM α) (a : σ) : (get >>= f) a = f a a := rfl

theorem lift_bind_apply (x : StoreM α) (f : α → StateT σ StoreM β) (a : σ) :
    ((x : StateT σ StoreM α) >>= f) a = x >>= fun b => f b a := by
  funext s
  change ((x >>= fun b => pure (b, a)) >>= fun b => f b.1 b.2) s = _
  simp only [bind_apply]
  rcases x s with ⟨_ | _, _⟩ <;> rfl

namespace Ends

theorem pure {ok : α → Contents → Prop} {a : α} (h : ok a c) : Ends s (pure a) c ok bad :=
  ⟨c, rfl, h⟩

theorem throw {ok : α → Contents → Prop} {e : Failure} (h : bad e c) : Ends s (throw e) c ok bad :=
  ⟨c, rfl, h⟩

theorem mono {x : StoreM α} {ok ok' : α → Contents → Prop} {bad' : Failure → Contents → Prop}
    (h : Ends s x c ok bad) (hok : ∀ a c, ok a c → ok' a c) (hbad : ∀ e c, bad e c → bad' e c) :
    Ends s x c ok' bad' := by
  unfold Ends at h ⊢
  split at h
  · obtain ⟨c', hs, h⟩ := h
    exact ⟨c', hs, hok _ _ h⟩
  · obtain ⟨c', hs, h⟩ := h
    exact ⟨c', hs, hbad _ _ h⟩

theorem weaken {x : StoreM α} {ok ok' : α → Contents → Prop} (h : Ends s x c ok bad)
    (hok : ∀ a c, ok a c → ok' a c) : Ends s x c ok' bad :=
  h.mono hok fun _ _ h => h

/-- What two rules say of one operation holds together. -/
theorem and {x : StoreM α} {ok ok' : α → Contents → Prop} {bad' : Failure → Contents → Prop}
    (h : Ends s x c ok bad) (h' : Ends s x c ok' bad') :
    Ends s x c (fun a c' => ok a c' ∧ ok' a c') bad := by
  unfold Ends at h h' ⊢
  rcases hx : x (s.holding c) with ⟨e | a, s'⟩ <;> simp only [hx] at h h' ⊢
  · exact h
  · obtain ⟨c₁, rfl, h₁⟩ := h
    obtain ⟨c₂, hs, h₂⟩ := h'
    obtain rfl : c₁ = c₂ := congrArg Store.contents hs
    exact ⟨c₁, rfl, h₁, h₂⟩

theorem bind {x : StoreM α} {f : α → StoreM β} {ok : α → Contents → Prop} {ok' : β → Contents → Prop}
    (hx : Ends s x c ok bad) (hf : ∀ a c, ok a c → Ends s (f a) c ok' bad) :
    Ends s (x >>= f) c ok' bad := by
  unfold Ends at hx ⊢
  rw [bind_apply]
  rcases h : x (s.holding c) with ⟨e | a, s'⟩
  · simp only [h] at hx
    exact hx
  · simp only [h] at hx
    obtain ⟨c', rfl, h'⟩ := hx
    exact hf a c' h'

/-- After an operation that changes nothing the rest starts on the same contents. -/
theorem keep_bind {x : StoreM α} {f : α → StoreM β} {ok : β → Contents → Prop}
    (hx : Ends s x c (fun _ c' => c' = c) bad) (hf : ∀ a, Ends s (f a) c ok bad) :
    Ends s (x >>= f) c ok bad := by
  refine hx.bind fun a c' hc => ?_
  subst hc
  exact hf a

/-- The contents are there to be read. -/
theorem get {f : Store → StoreM β} {ok : β → Contents → Prop} (h : Ends s (f (s.holding c)) c ok bad) :
    Ends s (get >>= f) c ok bad :=
  h

/-! A computation may carry a state of its own beside the store. -/

theorem bind_state {x : StateT σ StoreM α} {f : α → StateT σ StoreM β} {a : σ}
    {ok : α × σ → Contents → Prop} {ok' : β × σ → Contents → Prop} (hx : Ends s (x a) c ok bad)
    (hf : ∀ b c, ok b c → Ends s (f b.1 b.2) c ok' bad) : Ends s ((x >>= f) a) c ok' bad :=
  Ends.bind hx hf

theorem lift_state {x : StoreM α} {a : σ} {ok : α → Contents → Prop} (hx : Ends s x c ok bad) :
    Ends s ((liftM x : StateT σ StoreM α) a) c (fun b c' => ok b.1 c' ∧ b.2 = a) bad :=
  Ends.bind hx fun _ _ h => Ends.pure ⟨h, rfl⟩

/-! ## Loops -/

/-- A loop keeps an invariant that may depend on the rows still to come. -/
theorem forM {ρ : Type} (I : List ρ → Contents → Prop) {f : ρ → StoreM PUnit}
    (step : ∀ r rest c, I (r :: rest) c → Ends s (f r) c (fun _ => I rest) bad) :
    ∀ {rows : List ρ} {c : Contents}, I rows c → Ends s (rows.forM f) c (fun _ => I []) bad
  | [], _, h => Ends.pure h
  | r :: rest, c, h => by
    change Ends s (f r >>= fun _ => rest.forM f) c _ bad
    exact (step r rest c h).bind fun _ _ h' => Ends.forM I step h'

theorem foldlM {ρ : Type} (I : List ρ → σ → Contents → Prop) {f : σ → ρ → StoreM σ}
    (step : ∀ r rest a c, I (r :: rest) a c → Ends s (f a r) c (fun a' => I rest a') bad) :
    ∀ {rows : List ρ} {a : σ} {c : Contents}, I rows a c →
      Ends s (rows.foldlM f a) c (fun a' => I [] a') bad
  | [], _, _, h => Ends.pure h
  | r :: rest, a, c, h => by
    rw [List.foldlM_cons]
    exact (step r rest a c h).bind fun _ _ h' => Ends.foldlM I step h'

/-- Every row gets an answer that stands in `R` to it, and keeps doing so while the rest is
done: `R` may depend on the contents, and every step leaves contents that are `le` to the ones
before. -/
theorem mapM {ρ : Type} (le : Contents → Contents → Prop) (I : List ρ → Contents → Prop)
    (R : Contents → ρ → β → Prop) {f : ρ → StoreM β} (refl : ∀ c, le c c)
    (trans : ∀ {c₁ c₂ c₃}, le c₁ c₂ → le c₂ c₃ → le c₁ c₃)
    (keep : ∀ {c c' r b}, le c c' → R c r b → R c' r b)
    (step : ∀ r rest c, I (r :: rest) c →
      Ends s (f r) c (fun b c' => I rest c' ∧ le c c' ∧ R c' r b) bad) :
    ∀ {rows : List ρ} {c : Contents}, I rows c →
      Ends s (rows.mapM f) c (fun bs c' => I [] c' ∧ le c c' ∧ List.Forall₂ (R c') rows bs) bad
  | [], c, h => by
    rw [List.mapM_nil]
    exact Ends.pure ⟨h, refl c, .nil⟩
  | r :: rest, c, h => by
    rw [List.mapM_cons]
    refine (step r rest c h).bind fun b c₁ h₁ => ?_
    refine (Ends.mapM le I R refl trans keep step h₁.1).bind fun bs c₂ h₂ => ?_
    exact Ends.pure ⟨h₂.1, trans h₁.2.1 h₂.2.1, .cons (keep h₂.2.1 h₁.2.2) h₂.2.2⟩

/-- The same for a loop that carries a state of its own beside the store. -/
theorem mapM_state {ρ : Type} (le : Contents → Contents → Prop) (I : List ρ → σ → Contents → Prop)
    (R : Contents → ρ → β → Prop) {f : ρ → StateT σ StoreM β} (refl : ∀ c, le c c)
    (trans : ∀ {c₁ c₂ c₃}, le c₁ c₂ → le c₂ c₃ → le c₁ c₃)
    (keep : ∀ {c c' r b}, le c c' → R c r b → R c' r b)
    (step : ∀ r rest a c, I (r :: rest) a c →
      Ends s (f r a) c (fun b c' => I rest b.2 c' ∧ le c c' ∧ R c' r b.1) bad) :
    ∀ {rows : List ρ} {a : σ} {c : Contents}, I rows a c →
      Ends s (rows.mapM f a) c (fun bs c' => I [] bs.2 c' ∧ le c c' ∧ List.Forall₂ (R c') rows bs.1) bad
  | [], a, c, h => by
    rw [List.mapM_nil]
    exact Ends.pure ⟨h, refl c, .nil⟩
  | r :: rest, a, c, h => by
    rw [List.mapM_cons]
    refine (step r rest a c h).bind fun b c₁ h₁ => ?_
    refine (Ends.mapM_state le I R refl trans keep step h₁.1).bind fun bs c₂ h₂ => ?_
    exact Ends.pure ⟨h₂.1, trans h₁.2.1 h₂.2.1, .cons (keep h₂.2.1 h₁.2.2) h₂.2.2⟩

/-- What may be missing is done if it is there. -/
theorem option_state {ρ : Type} {f : ρ → StateT σ StoreM β} {o : Option ρ} {a : σ}
    (I : σ → Contents → Prop) (R : Contents → ρ → β → Prop) (hI : I a c)
    (step : ∀ r ∈ o, Ends s (f r a) c (fun b c' => I b.2 c' ∧ R c' r b.1) bad) :
    Ends s (o.mapM f a) c (fun b c' => I b.2 c' ∧ Option.Rel (R c') o b.1) bad := by
  cases o with
  | none => exact Ends.pure ⟨hI, .none⟩
  | some r =>
    change Ends s (f r a >>= fun b => Pure.pure (some b.1, b.2)) c _ bad
    exact (step r rfl).bind fun b c h => Ends.pure ⟨h.1, .some h.2⟩

/-! ## Statements -/

/-- A statement starts nothing where no transaction is under way. -/
theorem start {f : PUnit → StoreM β} {ok : β → Contents → Prop} (h : Ends s (f ⟨⟩) c ok bad) :
    Ends s (modify Store.start >>= f) c ok bad :=
  h

/-- The change of the contents is possible and fulfils `P`, or there is no room for it. -/
def Gives (change : Contents → Except RowFault Contents) (P : Contents → Prop) (bad : Failure → Contents → Prop)
    (c : Contents) : Prop :=
  (∃ c', change c = .ok c' ∧ P c') ∨ change c = .error .full ∧ bad (.row .full) c

/-- A statement asks for a number that does not fit into a word. -/
def Refuses (numbers : List Int) (bad : Failure → Contents → Prop) (c : Contents) : Prop :=
  numbers.all fitsWord = false → bad .integerRange c

theorem needTables {tables : List Table} (hc : c.Complete) :
    Ends s (needTables tables) c (fun _ c' => c' = c) bad := by
  have h : tables.find? (fun t => !c.has t) = none := by simp [hc.has]
  refine Ends.get ?_
  simp only [Store.holding_contents, h]
  exact Ends.pure rfl

theorem needParents {tables : List Table} (hc : c.Complete) :
    Ends s (needParents tables) c (fun _ c' => c' = c) bad := by
  have h : tables.find? (fun t => !c.has t) = none := by simp [hc.has]
  refine Ends.get ?_
  simp only [Store.holding_contents, h]
  exact Ends.pure rfl

theorem needWords {numbers : List Int} (hbad : Refuses numbers bad c) :
    Ends s (needWords numbers) c (fun _ c' => c' = c ∧ numbers.all fitsWord = true) bad := by
  unfold StoreM.needWords
  split
  next h => exact Ends.pure ⟨rfl, h⟩
  next h => exact Ends.throw (hbad (by simpa using h))

theorem query {tables : List Table} {numbers : List Int} {answer : Contents → α} (hc : c.Complete)
    (hbad : Refuses numbers bad c) :
    Ends s (query tables numbers answer) c
      (fun a c' => a = answer c ∧ c' = c ∧ numbers.all fitsWord = true) bad := by
  refine (needTables hc).keep_bind fun _ => (needWords hbad).bind ?_
  intro _ _ hpost
  obtain ⟨rfl, hw⟩ := hpost
  exact Ends.start (Ends.get (Ends.pure ⟨rfl, rfl, hw⟩))

theorem query_bind {tables : List Table} {numbers : List Int} {answer : Contents → α}
    {f : α → StoreM β} {ok : β → Contents → Prop} (hc : c.Complete) (hbad : Refuses numbers bad c)
    (hf : Ends s (f (answer c)) c ok bad) : Ends s (StoreM.query tables numbers answer >>= f) c ok bad := by
  refine (query hc hbad).bind ?_
  intro _ _ hpost
  obtain ⟨rfl, rfl, -⟩ := hpost
  exact hf

theorem step {numbers : List Int} {change : Contents → Except RowFault Contents} {P : Contents → Prop}
    (hbad : Refuses numbers bad c) (hchange : Gives change P bad c) :
    Ends s (step numbers change) c (fun _ c' => P c' ∧ numbers.all fitsWord = true) bad := by
  refine (needWords hbad).bind ?_
  intro _ c hpost
  obtain ⟨rfl, hw⟩ := hpost
  have hwritable : Ends s needWritable c (fun _ c' => c' = c) bad := Ends.get (Ends.pure rfl)
  refine hwritable.keep_bind fun _ => Ends.start (Ends.get ?_)
  rcases hchange with ⟨c', hchange, hP⟩ | ⟨hchange, hfull⟩
  · simp only [Store.holding_contents, hchange]
    exact ⟨c', rfl, hP, hw⟩
  · simp only [Store.holding_contents, hchange]
    exact ⟨c, rfl, hfull⟩

theorem execute {tables parents : List Table} {numbers : List Int}
    {change : Contents → Except RowFault Contents} {P : Contents → Prop} (hc : c.Complete)
    (hbad : Refuses numbers bad c) (hchange : Gives change P bad c) :
    Ends s (execute tables parents numbers change) c
      (fun _ c' => P c' ∧ numbers.all fitsWord = true) bad := by
  refine (needTables hc).keep_bind fun _ => (needParents hc).keep_bind fun _ => ?_
  exact step hbad hchange

/-- A statement that no row refuses. -/
theorem execute_ok {tables parents : List Table} {numbers : List Int} {change : Contents → Contents}
    (hc : c.Complete) (hbad : Refuses numbers bad c) :
    Ends s (StoreM.execute tables parents numbers fun c => .ok (change c)) c
      (fun _ c₁ => c₁ = change c ∧ numbers.all fitsWord = true) bad :=
  execute hc hbad (.inl ⟨_, rfl, rfl⟩)

theorem execute_bind {tables parents : List Table} {numbers : List Int}
    {change : Contents → Contents} {f : PUnit → StoreM β} {ok : β → Contents → Prop}
    (hc : c.Complete) (hbad : Refuses numbers bad c) (hf : Ends s (f ⟨⟩) (change c) ok bad) :
    Ends s ((StoreM.execute tables parents numbers fun c => .ok (change c)) >>= f) c ok bad := by
  refine (execute_ok hc hbad).bind ?_
  intro _ _ hpost
  obtain ⟨rfl, -⟩ := hpost
  exact hf

/-- The rows of one operation are written one by one, under an invariant of the contents. -/
theorem executeAll {ρ : Type} {tables parents : List Table} {numbers : ρ → List Int}
    {change : ρ → Contents → Except RowFault Contents} (I : List ρ → Contents → Prop)
    {rows : List ρ} (hc : c.Complete)
    (hrow : ∀ r rest c, I (r :: rest) c → Refuses (numbers r) bad c ∧
      Gives (change r) (fun c' => (numbers r).all fitsWord = true → I rest c') bad c)
    (h : I rows c) : Ends s (executeAll tables parents numbers change rows) c (fun _ => I []) bad := by
  refine (needTables hc).keep_bind fun _ => (needParents hc).keep_bind fun _ => ?_
  refine Ends.forM I (fun r rest c h => ?_) h
  obtain ⟨hbad, hchange⟩ := hrow r rest c h
  exact (step hbad hchange).weaken fun _ _ ⟨hI, hw⟩ => hI hw

end Ends

end StoreM

end Crossref
