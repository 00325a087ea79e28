/-
What an operation on a store looks at and what it touches. `StoreM.Acts R x` says
of an operation `x`: where no transaction is under way it changes nothing of a store
but the contents, the contents before it and after it stand in `R`, it fails only
for a row or a number, and neither its answer nor what it leaves depends on the path
of the store or on the blocks that are open. Inside a transaction it does the same,
unless it runs out of room, which ends the transaction and takes everything back. A
statement acts in this way if its change stays in `R`.
-/
import Mathlib.Order.Defs.Unbundled
import Crossref.Proofs.Store.Outcome
import Crossref.Store.Maintenance
import Crossref.Store.Query
import Crossref.Store.Write

namespace Crossref

/-- The two stores hold the same, their transactions have got as far, and both may be written or neither. -/
structure Store.Alike (s s' : Store) : Prop where
  contents : s.contents = s'.contents
  readOnly : s.readOnly = s'.readOnly
  transaction : s.transaction = s'.transaction

theorem Store.Alike.start {s s' : Store} (h : s.Alike s') : s.start.Alike s'.start :=
  ⟨h.contents, h.readOnly, by simp only [Store.start, h.transaction, h.contents]⟩

/-! ## Inside a transaction -/

/-- What the transaction takes back to, where the contents are these. -/
def Transaction.saved? (t : Transaction) (c : Contents) : Option Contents :=
  match t with
  | .idle => none
  | .begun => some c
  | .running saved => some saved

/-- The store as if no transaction were under way. -/
def Store.bare (s : Store) : Store :=
  { s with transaction := .idle }

theorem Transaction.start_of_saved? {t : Transaction} {c saved : Contents} (h : t.saved? c = some saved) :
    t.start c = .running saved := by
  cases t with
  | idle => cases h
  | begun => exact congrArg Transaction.running (Option.some.inj h)
  | running _ => exact congrArg Transaction.running (Option.some.inj h)

/-- The first statement settles what is taken back to. -/
theorem Store.start_of_saved? {s : Store} {saved : Contents} (h : s.transaction.saved? s.contents = some saved) :
    s.start = { s with transaction := .running saved } := by
  rw [Store.start, Transaction.start_of_saved? h]

/-- How an operation ends without a transaction and how it ends inside one that takes back to `saved`: alike,
unless there was no room. -/
inductive Store.Inside (s : Store) (saved : Contents) {α : Type} :
    Except Failure α × Store → Except Failure α × Store → Prop where
  | lost (c : Contents) :
    s.Inside saved (.error (.row .full), { s.bare with contents := c })
      (.error (.row .full), { s with contents := saved, transaction := .idle })
  | kept {out : Except Failure α} {c : Contents} {t : Transaction} (room : out ≠ .error (.row .full))
    (ht : t.saved? c = some saved) (runs : s.transaction.isRunning = true → t.isRunning = true) :
    s.Inside saved (out, { s.bare with contents := c }) (out, { s with contents := c, transaction := t })

/-- What happens after an operation inside a transaction happens inside it. -/
theorem Store.Inside.of_later {s : Store} {saved c : Contents} {t : Transaction} {α : Type}
    {bare out : Except Failure α × Store} (runs : s.transaction.isRunning = true → t.isRunning = true)
    (h : { s with contents := c, transaction := t : Store }.Inside saved bare out) : s.Inside saved bare out := by
  cases h with
  | lost d => exact .lost d
  | kept room ht runs' => exact .kept room ht fun hs => runs' (runs hs)

/-- What a statement fails for: a row or a number. -/
def Failure.ofStatement : Failure → Bool
  | .row _ | .integerRange => true
  | _ => false

namespace StoreM

structure Acts (R : Contents → Contents → Prop) {α : Type} (x : StoreM α) : Prop where
  only : ∀ {s : Store}, s.transaction = .idle → (x s).2 = { s with contents := (x s).2.contents }
  changes : ∀ {s : Store}, s.transaction = .idle → R s.contents (x s).2.contents
  sees : ∀ {s s' : Store}, s.Alike s' → (x s).1 = (x s').1 ∧ (x s).2.Alike (x s').2
  fails : ∀ {s : Store} {e : Failure}, (x s).1 = .error e → e.ofStatement = true
  inside : ∀ {s : Store} {saved : Contents}, s.transaction.saved? s.contents = some saved → s.Inside saved (x s.bare) (x s)

namespace Acts

variable {α β σ ρ : Type} {R S T : Contents → Contents → Prop}

/-- An operation begins no transaction. -/
theorem idle {x : StoreM α} (h : Acts R x) {s : Store} (hs : s.transaction = .idle) :
    (x s).2.transaction = .idle := by
  rw [h.only hs]
  exact hs

theorem mono {x : StoreM α} (h : Acts R x) (hS : ∀ c c', R c c' → S c c') : Acts S x :=
  { h with changes := fun hs => hS _ _ (h.changes hs) }

/-- One operation after the other: the first may fail, and then its own change is all. -/
theorem seq {x : StoreM α} {f : α → StoreM β} (hx : Acts R x) (hf : ∀ a, Acts S (f a))
    (hfirst : ∀ c c', R c c' → T c c') (hboth : ∀ c c' c'', R c c' → S c' c'' → T c c'') :
    Acts T (x >>= f) where
  only {s} hidle := by
    have hs := hx.only hidle
    have hidle₁ := hx.idle hidle
    rw [bind_apply]
    rcases hr : x s with ⟨e | a, s₁⟩ <;> simp only [hr] at hs hidle₁ ⊢
    · exact hs
    · have hs₁ := (hf a).only hidle₁
      rw [hs] at hs₁ ⊢
      exact hs₁
  changes {s} hidle := by
    have hs := hx.changes hidle
    have hidle₁ := hx.idle hidle
    rw [bind_apply]
    rcases hr : x s with ⟨e | a, s₁⟩ <;> simp only [hr] at hs hidle₁ ⊢
    · exact hfirst _ _ hs
    · exact hboth _ _ _ hs ((hf a).changes hidle₁)
  sees {s s'} h := by
    have hs := hx.sees h
    rw [bind_apply, bind_apply]
    rcases hr : x s with ⟨e | a, s₁⟩ <;> rcases hr' : x s' with ⟨e' | a', s₁'⟩ <;>
      simp only [hr, hr', reduceCtorEq, false_and] at hs ⊢
    · exact ⟨congrArg _ (Except.error.inj hs.1), hs.2⟩
    · obtain rfl := Except.ok.inj hs.1
      exact (hf a).sees hs.2
  fails {s e} h := by
    rw [bind_apply] at h
    rcases hr : x s with ⟨e' | a, s₁⟩ <;> simp only [hr] at h
    · obtain rfl := Except.error.inj h
      exact hx.fails (by rw [hr])
    · exact (hf a).fails h
  inside {s saved} hs := by
    have hinside := hx.inside hs
    rw [bind_apply, bind_apply]
    rcases hb : x s.bare with ⟨e | a, s₁⟩ <;> rcases hr : x s with ⟨e' | a', s₁'⟩ <;>
      rw [hb, hr] at hinside
    · cases hinside with
      | lost c => exact .lost c
      | kept room ht runs => exact .kept (fun h => room (congrArg _ (Except.error.inj h))) ht runs
    · cases hinside
    · cases hinside
    · cases hinside with
      | kept room ht runs => exact ((hf a).inside ht).of_later runs

/-- What comes last changes nothing. -/
theorem before {x : StoreM α} {f : α → StoreM β} (hx : Acts R x) (hf : ∀ a, Acts (· = ·) (f a)) :
    Acts R (x >>= f) :=
  hx.seq hf (fun _ _ h => h) fun _ _ _ h h' => h' ▸ h

theorem get {f : Store → StoreM β} (hf : ∀ s, Acts R (f s))
    (hsame : ∀ {s s' : Store}, s.contents = s'.contents → s.readOnly = s'.readOnly → f s = f s') :
    Acts R (get >>= f) where
  only {s} hidle := (hf s).only hidle
  changes {s} hidle := (hf s).changes hidle
  sees {s s'} h := by
    have hs := (hf s).sees h
    rwa [get_apply, get_apply, ← hsame h.contents h.readOnly]
  fails {s _} h := (hf s).fails h
  inside {s _} hs := by
    have hbare : f s.bare = f s := hsame rfl rfl
    rw [get_apply, get_apply, hbare]
    exact (hf s).inside hs

/-- An answer that depends on nothing but the contents. -/
theorem of_answer {x : StoreM α} (g : Contents → Except Failure α) (hx : ∀ s, x s = (g s.contents, s))
    (hfails : ∀ c e, g c = .error e → e.ofStatement = true ∧ e ≠ .row .full) [Std.Refl R] : Acts R x where
  only {s} _ := by rw [hx]
  changes {s} _ := by
    rw [hx]
    exact Std.Refl.refl s.contents
  sees {s s'} h := by
    rw [hx, hx, h.contents]
    exact ⟨rfl, h⟩
  fails {s e} h := by
    rw [hx] at h
    exact (hfails _ _ h).1
  inside {s saved} hs := by
    rw [hx, hx]
    exact .kept (fun h => (hfails _ _ h).2 rfl) hs id

variable [Std.Refl R]

theorem pure (a : α) : Acts R (pure a) :=
  of_answer (fun _ => .ok a) (fun _ => rfl) nofun

theorem throw {e : Failure} (he : e.ofStatement = true) (hroom : e ≠ .row .full) : Acts R (throw e : StoreM α) :=
  of_answer (fun _ => .error e) (fun _ => rfl) fun _ _ h => Except.error.inj h ▸ ⟨he, hroom⟩

/-- What comes first changes nothing. -/
theorem after {x : StoreM α} {f : α → StoreM β} (hx : Acts (· = ·) x) (hf : ∀ a, Acts R (f a)) :
    Acts R (x >>= f) :=
  hx.seq hf (fun c _ h => h ▸ Std.Refl.refl c) fun _ _ _ h h' => h ▸ h'

/-! ## Statements -/

theorem needTables (tables : List Table) : Acts R (needTables tables) := by
  refine get (fun s => ?_) fun h _ => by simp only [h]
  dsimp only
  split
  · exact throw rfl nofun
  · exact pure _

theorem needParents (tables : List Table) : Acts R (needParents tables) := by
  refine get (fun s => ?_) fun h _ => by simp only [h]
  dsimp only
  split
  · exact throw rfl nofun
  · exact pure _

theorem needWords (numbers : List Int) : Acts R (needWords numbers) := by
  unfold StoreM.needWords
  split
  · exact pure _
  · exact throw rfl nofun

theorem needWritable : Acts R needWritable := by
  refine get (fun s => ?_) fun _ h => by simp only [h]
  split
  · exact throw rfl nofun
  · exact pure _

/-- A statement starts the transaction. -/
theorem start : Acts R (modify Store.start) where
  only {s} hidle := by
    change s.start = { s with contents := s.start.contents }
    rw [Store.start_of_idle hidle]
  changes {s} _ := Std.Refl.refl s.contents
  sees h := ⟨rfl, h.start⟩
  fails := nofun
  inside {s saved} hs := by
    change s.Inside saved (Except.ok PUnit.unit, s.bare.start) (Except.ok PUnit.unit, s.start)
    rw [Store.start_of_saved? hs]
    exact .kept (c := s.contents) nofun rfl fun _ => rfl

theorem query (tables : List Table) (numbers : List Int) (answer : Contents → α) :
    Acts R (query tables numbers answer) :=
  (needTables tables).after fun _ => (needWords numbers).after fun _ => start.after fun _ =>
    get (fun _ => pure _) fun h _ => by rw [h]

section
variable {change : Contents → Except RowFault Contents} {s s' : Store}

theorem become_alike (h : s.Alike s') :
    (StoreM.become change s).1 = (StoreM.become change s').1 ∧
      (StoreM.become change s).2.Alike (StoreM.become change s').2 := by
  have hstart := h.start
  cases hc : change s.contents with
  | ok c =>
    rw [become_ok hc, become_ok (h.contents ▸ hc)]
    exact ⟨rfl, rfl, hstart.readOnly, hstart.transaction⟩
  | error fault =>
    by_cases hfull : fault = .full
    · subst hfull
      rw [become_full hc, become_full (h.contents ▸ hc)]
      refine ⟨rfl, ?_, hstart.readOnly, rfl⟩
      simp only [Store.takeBack, hstart.transaction, hstart.contents]
    · rw [become_error hc hfull, become_error (h.contents ▸ hc) hfull]
      exact ⟨rfl, hstart⟩

theorem become_fails {e : Failure} (he : (StoreM.become change s).1 = .error e) : e.ofStatement = true := by
  cases hc : change s.contents with
  | ok c =>
    rw [become_ok hc] at he
    cases he
  | error fault =>
    rw [become_refuses hc] at he
    exact Except.error.inj he ▸ rfl

theorem become_inside {saved : Contents} (hs : s.transaction.saved? s.contents = some saved) :
    s.Inside saved (StoreM.become change s.bare) (StoreM.become change s) := by
  have hstart := Store.start_of_saved? hs
  have hbare : s.bare.contents = s.contents := rfl
  rw [become_idle (s := s.bare) rfl, hbare]
  cases hc : change s.contents with
  | ok c =>
    rw [become_ok hc, hstart]
    exact .kept nofun rfl fun _ => rfl
  | error fault =>
    by_cases hfull : fault = .full
    · subst hfull
      rw [become_full hc, hstart]
      exact .lost s.contents
    · rw [become_error hc hfull, hstart]
      exact .kept (c := s.contents) (fun h => hfull (by cases h; rfl)) rfl fun _ => rfl

end

theorem become {change : Contents → Except RowFault Contents}
    (h : ∀ c c', change c = .ok c' → R c c') : Acts R (become change) where
  only {s} hs := by
    rw [become_idle hs]
    cases change s.contents <;> rfl
  changes {s} hs := by
    rw [become_idle hs]
    cases hc : change s.contents with
    | ok c => exact h _ _ hc
    | error fault => exact Std.Refl.refl s.contents
  sees := become_alike
  fails := become_fails
  inside := become_inside

theorem step {numbers : List Int} {change : Contents → Except RowFault Contents}
    (h : ∀ c c', change c = .ok c' → R c c') : Acts R (step numbers change) :=
  (needWords numbers).after fun _ => needWritable.after fun _ => become h

theorem execute {tables parents : List Table} {numbers : List Int}
    {change : Contents → Except RowFault Contents} (h : ∀ c c', change c = .ok c' → R c c') :
    Acts R (execute tables parents numbers change) :=
  (needTables tables).after fun _ => (needParents parents).after fun _ => step h

/-- A statement that no row refuses. -/
theorem execute_ok {tables parents : List Table} {numbers : List Int} {change : Contents → Contents}
    (h : ∀ c, R c (change c)) :
    Acts R (StoreM.execute tables parents numbers fun c => .ok (change c)) :=
  execute fun c _ heq => Except.ok.inj heq ▸ h c

theorem changeLinks {tables : List Table} {changes : Contents → Nat} {change : Contents → Contents}
    (h : ∀ c, R c (change c)) : Acts R (Store.changeLinks tables changes change) := by
  refine (needTables _).after fun _ => (needParents _).after fun _ => get (fun s => ?_) fun hs _ => ?_
  · exact (step fun c c' heq => Except.ok.inj heq ▸ h c).before fun _ => pure _
  · simp only [hs]

theorem pruneOrphans (h : ∀ c c', c.dropOrphans = .ok c' → R c c') : Acts R Store.pruneOrphans := by
  refine (needTables _).after fun _ => (needParents _).after fun _ => get (fun s => ?_) fun hs _ => ?_
  · exact (step h).before fun _ => pure _
  · simp only [hs]

end Acts

/-- What an operation changes of contents, it changes of them wherever it runs. -/
theorem Ends.of_acts {α : Type} {R : Contents → Contents → Prop} {x : StoreM α} (h : Acts R x) (s : Store)
    (c : Contents) : Ends s x c (fun _ c' => R c c') fun _ _ => True := by
  have honly := h.only (s := s.holding c) rfl
  have hchanges := h.changes (s := s.holding c) rfl
  unfold Ends
  rcases hx : x (s.holding c) with ⟨e | a, s'⟩ <;> simp only [hx] at honly hchanges ⊢
  · exact ⟨_, honly, trivial⟩
  · exact ⟨_, honly, hchanges⟩

/-! ## Operations put together -/

/-- A property that passes from operations to what is put together of them. -/
structure Composes (P : {α : Type} → StoreM α → Prop) : Prop where
  pure : ∀ {α : Type} (a : α), P (pure a)
  bind : ∀ {α β : Type} {x : StoreM α} {f : α → StoreM β}, P x → (∀ a, P (f a)) → P (x >>= f)

namespace Composes

variable {P : {α : Type} → StoreM α → Prop} {α σ ρ : Type} (h : Composes P)
include h

theorem lift_state {x : StoreM α} (hx : P x) (a : σ) : P ((liftM x : StateT σ StoreM α) a) :=
  h.bind hx fun b => h.pure (b, a)

theorem forM {f : ρ → StoreM PUnit} (hf : ∀ r, P (f r)) (rows : List ρ) : P (rows.forM f) := by
  induction rows with
  | nil => exact h.pure _
  | cons r rows ih => exact h.bind (hf r) fun _ => ih

theorem foldlM {f : σ → ρ → StoreM σ} (hf : ∀ a r, P (f a r)) (rows : List ρ) (a : σ) :
    P (rows.foldlM f a) := by
  induction rows generalizing a with
  | nil => exact h.pure a
  | cons r rows ih =>
    rw [List.foldlM_cons]
    exact h.bind (hf a r) ih

theorem mapM {f : ρ → StoreM α} (hf : ∀ r, P (f r)) (rows : List ρ) : P (rows.mapM f) := by
  induction rows with
  | nil => exact h.pure _
  | cons r rows ih =>
    rw [List.mapM_cons]
    exact h.bind (hf r) fun a => h.bind ih fun out => h.pure (a :: out)

theorem mapM_state {f : ρ → StateT σ StoreM α} (hf : ∀ r a, P (f r a)) (rows : List ρ) (a : σ) :
    P (rows.mapM f a) := by
  induction rows generalizing a with
  | nil => exact h.pure _
  | cons r rows ih =>
    rw [List.mapM_cons]
    exact h.bind (hf r a) fun b => h.bind (ih b.2) fun out => h.pure (b.1 :: out.1, out.2)

theorem option_state {f : ρ → StateT σ StoreM α} {o : Option ρ} (hf : ∀ r a, P (f r a)) (a : σ) :
    P (o.mapM f a) := by
  cases o with
  | none => exact h.pure _
  | some r => exact h.bind (hf r a) fun b => h.pure (some b.1, b.2)

end Composes

namespace Acts

variable {α β ρ : Type} {R : Contents → Contents → Prop} [IsPreorder Contents R]

theorem bind {x : StoreM α} {f : α → StoreM β} (hx : Acts R x) (hf : ∀ a, Acts R (f a)) :
    Acts R (x >>= f) :=
  hx.seq hf (fun _ _ h => h) IsTrans.trans

theorem composes : Composes (@Acts R) :=
  ⟨pure, bind⟩

theorem executeAll {tables parents : List Table} {numbers : ρ → List Int}
    {change : ρ → Contents → Except RowFault Contents} {rows : List ρ}
    (h : ∀ r c c', change r c = .ok c' → R c c') :
    Acts R (executeAll tables parents numbers change rows) :=
  (needTables tables).after fun _ => (needParents parents).after fun _ =>
    composes.forM (fun r => step (h r)) rows

end Acts

/-! ## What has succeeded -/

section
variable {α β : Type} {s s' : Store}

/-- Of two operations that succeed the first one does. -/
theorem bind_answers {x : StoreM α} {f : α → StoreM β} {b : β} (h : (x >>= f) s = (.ok b, s')) :
    ∃ a s₁, x s = (.ok a, s₁) ∧ f a s₁ = (.ok b, s') := by
  rw [bind_apply] at h
  rcases hx : x s with ⟨e | a, s₁⟩ <;> rw [hx] at h
  · cases h
  · exact ⟨a, s₁, rfl, h⟩

/-- An operation that succeeds has made its change, also inside a transaction. -/
theorem Acts.changes_of_ok {R : Contents → Contents → Prop} {x : StoreM α} (h : Acts R x) {a : α}
    (hx : x s = (.ok a, s')) : R s.contents s'.contents := by
  cases hsaved : s.transaction.saved? s.contents with
  | none =>
    have hidle : s.transaction = .idle := by
      cases ht : s.transaction with
      | idle => rfl
      | begun => simp [ht, Transaction.saved?] at hsaved
      | running saved => simp [ht, Transaction.saved?] at hsaved
    have hs := h.changes hidle
    rwa [hx] at hs
  | some saved =>
    have hs := h.changes (s := s.bare) rfl
    have hinside := h.inside hsaved
    rw [hx] at hinside
    generalize x s.bare = bare at hs hinside
    cases hinside with
    | kept => exact hs

/-- What only looks leaves the contents. -/
theorem Acts.same {x : StoreM α} (h : Acts (· = ·) x) {a : α} (hx : x s = (.ok a, s')) :
    s.contents = s'.contents :=
  h.changes_of_ok hx

/-- A statement that succeeds has made its change. -/
theorem execute_answers {tables parents : List Table} {numbers : List Int}
    {change : Contents → Except RowFault Contents} (h : execute tables parents numbers change s = (.ok ⟨⟩, s')) :
    change s.contents = .ok s'.contents := by
  obtain ⟨_, s₁, htables, h⟩ := bind_answers h
  obtain ⟨_, s₂, hparents, h⟩ := bind_answers h
  obtain ⟨_, s₃, hwords, h⟩ := bind_answers h
  obtain ⟨_, s₄, hwritable, h⟩ := bind_answers h
  rw [(Acts.needTables tables).same htables, (Acts.needParents parents).same hparents,
    (Acts.needWords numbers).same hwords, Acts.needWritable.same hwritable]
  cases hc : change s₄.contents with
  | ok c =>
    rw [become_ok hc] at h
    obtain ⟨-, rfl⟩ := Prod.mk.inj h
    rfl
  | error fault =>
    have hrefused := become_refuses hc
    rw [h] at hrefused
    cases hrefused

theorem query_answers {tables : List Table} {numbers : List Int} {answer : Contents → α} {a : α}
    (h : query tables numbers answer s = (.ok a, s')) : a = answer s.contents := by
  obtain ⟨_, s₁, htables, h⟩ := bind_answers h
  obtain ⟨_, s₂, hwords, h⟩ := bind_answers h
  rw [(Acts.needTables tables).same htables, (Acts.needWords numbers).same hwords]
  obtain ⟨ha, -⟩ := Prod.mk.inj h
  exact (Except.ok.inj ha).symm

end

end StoreM

end Crossref
