/-
What a block does to a store. An outermost block that goes well keeps what its body
does, and one that fails takes it back. If the body ran out of room there is nothing
left to take back, and it is this that the block fails for.
-/
import Crossref.Proofs.Store.Acts

namespace Crossref

/-- No transaction is under way, no block is open, and the store may be written. -/
structure Store.Idle (s : Store) : Prop where
  depth : s.depth = 0
  transaction : s.transaction = .idle
  writable : s.readOnly = false

/-- The idle store at a path that holds the contents. -/
def Contents.idle (c : Contents) (path : String) : Store :=
  { path, readOnly := false, contents := c }

theorem Contents.isIdle_idle (c : Contents) (path : String) : (c.idle path).Idle :=
  ⟨rfl, rfl, rfl⟩

theorem Store.Idle.holding {s : Store} (hs : s.Idle) : s.holding s.contents = s := by
  rw [Store.holding, ← hs.writable, ← hs.transaction]

theorem Transaction.ne_idle {t : Transaction} {c saved : Contents} (h : t.saved? c = some saved) : t ≠ .idle := by
  rintro rfl
  cases h

theorem Transaction.restore_of_saved? {t : Transaction} {c saved : Contents} (h : t.saved? c = some saved) :
    t.restore c = saved := by
  cases t with
  | idle => cases h
  | begun => exact Option.some.inj h
  | running _ => exact Option.some.inj h

/-- What an outermost block raises for what its body raises. -/
def Failure.ofBlock : Failure → Failure
  | .row .full => .row .cannotRollback
  | e => e

theorem Failure.ofBlock_of_ne {e : Failure} (h : e ≠ .row .full) : e.ofBlock = e := by
  unfold ofBlock
  split
  · exact absurd rfl h
  · rfl

namespace StoreM

/-- The outermost block ends well. -/
theorem leave_outermost {s : Store} (hd : s.depth = 1) :
    leave s =
      if s.transaction = .idle then (.error (.row .cannotCommit), { s with depth := 0 })
      else (.ok ⟨⟩, { s with depth := 0, transaction := .idle }) := by
  have hdepth : s.depth - 1 = 0 := by omega
  unfold leave
  rw [modify_apply, get_apply]
  simp only [hdepth, if_true]
  split <;> rfl

/-- The outermost block fails. -/
theorem abandon_outermost {s : Store} (hd : s.depth = 1) :
    abandon s =
      if s.transaction = .idle then (.error (.row .cannotRollback), { s with depth := 0 })
      else (.ok ⟨⟩, { s.takeBack with depth := 0 }) := by
  have hdepth : s.depth - 1 = 0 := by omega
  unfold abandon
  rw [modify_apply, get_apply]
  simp only [hdepth, if_true]
  split <;> rfl

/-- An inner block ends. -/
theorem leave_inner {s : Store} (hd : 1 < s.depth) : leave s = (.ok ⟨⟩, { s with depth := s.depth - 1 }) := by
  have hdepth : ¬s.depth - 1 = 0 := by omega
  unfold leave
  rw [modify_apply, get_apply]
  simp only [hdepth, if_false]
  rfl

theorem abandon_inner {s : Store} (hd : 1 < s.depth) : abandon s = (.ok ⟨⟩, { s with depth := s.depth - 1 }) := by
  have hdepth : ¬s.depth - 1 = 0 := by omega
  unfold abandon
  rw [modify_apply, get_apply]
  simp only [hdepth, if_false]
  rfl

/-- What is kept was there before. -/
theorem leave_contents {s s' : Store} {u : PUnit} (h : leave s = (.ok u, s')) : s'.contents = s.contents := by
  unfold leave at h
  rw [modify_apply, get_apply] at h
  dsimp only at h
  split at h
  · split at h <;> cases h
    rfl
  · cases h
    rfl

theorem leave_state (s : Store) :
    (leave s).2 =
      { s with
        depth := s.depth - 1
        transaction := if s.depth - 1 = 0 then .idle else s.transaction } := by
  unfold leave
  rw [modify_apply, get_apply]
  dsimp only
  split
  next hd =>
    split
    next hidle => exact congrArg (fun t : Transaction => { s with depth := s.depth - 1, transaction := t }) hidle
    next => rfl
  next => rfl

theorem abandon_state (s : Store) :
    (abandon s).2 =
      { s with
        depth := s.depth - 1
        contents := if s.depth - 1 = 0 then s.transaction.restore s.contents else s.contents
        transaction := if s.depth - 1 = 0 then .idle else s.transaction } := by
  unfold abandon
  rw [modify_apply, get_apply]
  dsimp only
  split
  next hd =>
    split
    next hidle =>
      obtain ⟨path, readOnly, contents, depth, transaction⟩ := s
      obtain rfl : transaction = .idle := hidle
      rfl
    next => rfl
  next => rfl

theorem block_apply {α : Type} (x : StoreM α) (s : Store) :
    transaction x s =
      match x s.enter with
      | (.ok a, s') => (leave >>= fun _ => pure a) s'
      | (.error e, s') => (abandon >>= fun _ => (throw e : StoreM α)) s' := by
  unfold transaction
  rw [modify_apply, bind_apply, tryCatch_apply]
  rcases x s.enter with ⟨e | a, s'⟩
  · dsimp only
    rw [bind_apply]
    rcases abandon s' with ⟨_ | _, _⟩ <;> rfl
  · rfl

/-- Inside a transaction an operation changes nothing of what there is to take back. -/
theorem Acts.restores {α : Type} {R : Contents → Contents → Prop} {x : StoreM α} (hx : Acts R x) {s : Store}
    (hs : s.transaction ≠ .idle) :
    ∃ c t, (x s).2 = { s with contents := c, transaction := t } ∧
      t.restore c = s.transaction.restore s.contents := by
  obtain ⟨saved, hsaved⟩ : ∃ saved, s.transaction.saved? s.contents = some saved := by
    cases ht : s.transaction with
    | idle => exact absurd ht hs
    | begun => exact ⟨_, rfl⟩
    | running saved => exact ⟨_, rfl⟩
  have hinside := hx.inside hsaved
  rw [Transaction.restore_of_saved? hsaved]
  generalize x s.bare = bare at hinside
  generalize x s = out at hinside
  cases hinside with
  | lost c => exact ⟨_, _, rfl, rfl⟩
  | kept room ht runs => exact ⟨_, _, rfl, Transaction.restore_of_saved? ht⟩

/-- **An outermost block keeps what its body does, or takes it back.** -/
theorem transaction_apply {α : Type} {R : Contents → Contents → Prop} {x : StoreM α} (hx : Acts R x) {s : Store}
    (hs : s.Idle) :
    transaction x s =
      match x s with
      | (.ok a, s') => (.ok a, s')
      | (.error e, _) => (.error e.ofBlock, s) := by
  have henter : s.enter = { s with depth := 1, transaction := .begun } := by
    simp [Store.enter, hs.depth]
  have hidle : { s with depth := 0, transaction := .idle : Store } = s := by
    rw [← hs.depth, ← hs.transaction]
  have hinside : s.enter.Inside s.contents (x s.enter.bare) (x s.enter) := hx.inside (by rw [henter]; rfl)
  have halike : s.enter.bare.Alike s := ⟨rfl, rfl, hs.transaction.symm⟩
  have hsees := hx.sees halike
  have honly := hx.only hs.transaction
  rw [block_apply]
  generalize hbare : x s.enter.bare = bare at hinside hsees
  generalize x s.enter = out at hinside
  rcases hr : x s with ⟨r, s'⟩
  rw [hr] at hsees honly
  obtain ⟨hanswer, hcontents, -⟩ := hsees
  dsimp only at hanswer hcontents honly
  subst hanswer
  cases hinside with
  | lost c =>
    dsimp only
    rw [bind_apply, abandon_outermost (by rw [henter])]
    simp only [if_true]
    exact congrArg (Prod.mk _) (by rw [henter]; exact hidle)
  | @kept out c t room ht =>
    obtain rfl : c = s'.contents := hcontents
    cases out with
    | ok a =>
      dsimp only
      rw [bind_apply, leave_outermost (by rw [henter])]
      simp only [Transaction.ne_idle ht, if_false]
      refine congrArg (Prod.mk _) ?_
      rw [honly, henter]
      exact congrArg (fun s : Store => { s with contents := s'.contents }) hidle
    | error e =>
      dsimp only
      rw [bind_apply, abandon_outermost (by rw [henter])]
      simp only [Transaction.ne_idle ht, if_false, Store.takeBack, Transaction.restore_of_saved? ht,
        Failure.ofBlock_of_ne fun h => room (congrArg _ h)]
      exact congrArg (Prod.mk _) (by rw [henter]; exact hidle)

end StoreM

end Crossref
