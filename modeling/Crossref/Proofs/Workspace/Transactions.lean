/-
Transaction blocks on one open connection. `Workspace.Sees` says which store a
connection sees, also while a transaction is under way on it: then its file still
holds what there was before. `WorkM.Tracks` says of an operation on the workspace that
it does to the connection what an operation on a store does to the store that is seen.
So a script of nested blocks does what it does on a store, and no block is left open.
-/
import Crossref.Proofs.Store.Scripts
import Crossref.Proofs.Workspace.Target

namespace Crossref

namespace WorkM

variable {α : Type}

/-- Runs an operation as one transaction block of a connection. -/
def transaction (id : Nat) (body : WorkM α) : WorkM α := do
  enter id
  let a ← tryCatch body fun e => do
    abandon id
    throw e
  leave id
  pure a

def attempt (caught : Bool) (x : WorkM PUnit) : WorkM PUnit :=
  if caught then tryCatch x fun _ => pure ⟨⟩ else x

/-- What an operation raises is its answer. -/
def outcome (x : WorkM PUnit) : WorkM (Except Failure Unit) :=
  tryCatch (do x; pure (.ok ⟨⟩)) fun e => pure (.error e)

end WorkM

def Script.run (id : Nat) : Script → WorkM PUnit
  | .done => pure ⟨⟩
  | .raise e => throw e
  | .write w caught rest => do
    WorkM.attempt caught (WorkM.onStore id w.run)
    rest.run id
  | .copy source caught rest => do
    WorkM.attempt caught (WorkM.copy source id)
    rest.run id
  | .block body caught rest => do
    WorkM.attempt caught (WorkM.transaction id (body.run id))
    rest.run id

/-- The outermost blocks one after the other; what they raise is caught. -/
def Script.runAll (id : Nat) (blocks : List Script) : WorkM (List (Except Failure Unit)) :=
  blocks.mapM fun b => WorkM.outcome (WorkM.transaction id (b.run id))

/-! ## What a connection sees -/

namespace Workspace

/-- The connection is open and sees the store. Its file, if there is one, holds what there is once the transaction is
taken back. -/
structure Sees (w : Workspace) (id : Nat) (place : Option Place) (s : Store) : Prop where
  connection : ∃ k, w.connection? id = some k ∧ k.isOpen = true ∧ k.place = place ∧ w.storeOf k = s
  file : ∀ p, place = some p → ∀ c mtime, w.files.node? p = some (.store c mtime) →
    c = s.transaction.restore s.contents
  outside : s.depth = 0 → s.transaction = .idle

/-- Another connection, to another store, is open and sees the store. -/
structure Offers (w : Workspace) (id : Nat) (place : Option Place) (source : Nat) (s : Store) : Prop where
  other : source ≠ id
  connection : ∃ k, w.connection? source = some k ∧ k.isOpen = true ∧ (∀ p, k.place = some p → place ≠ some p) ∧
    w.storeOf k = s

variable {w w' : Workspace} {id : Nat} {place : Option Place} {k : Connection} {s s' : Store}

/-- A connection sees the store that it has taken over, if the file agrees. -/
theorem sees_of_holding (hk : w.connection? id = some (k.holding s)) (hopen : k.isOpen = true)
    (hplace : k.place = place) (hpath : s.path = k.path) (hreadOnly : s.readOnly = k.readOnly)
    (hfile : ∀ p, place = some p → ∀ c mtime, w.files.node? p = some (.store c mtime) →
      c = s.transaction.restore s.contents)
    (houtside : s.depth = 0 → s.transaction = .idle) : w.Sees id place s := by
  refine ⟨⟨_, hk, hopen, hplace, ?_⟩, hfile, houtside⟩
  have hcontents : (w.storeOf (k.holding s)).contents = s.contents := by
    unfold storeOf
    cases hp : (k.holding s).place with
    | none => rfl
    | some p =>
      dsimp only
      split
      · rfl
      next hrunning =>
        split
        next c mtime hnode =>
          rw [hfile p (hplace.symm.trans hp) c mtime hnode]
          cases ht : s.transaction with
          | running saved => exact absurd (congrArg Transaction.isRunning ht) hrunning
          | _ => rfl
        · rfl
  have hstore : w.storeOf (k.holding s) =
      { path := k.path, readOnly := k.readOnly, contents := (w.storeOf (k.holding s)).contents, depth := s.depth,
        transaction := s.transaction } := rfl
  rw [hstore, hcontents, ← hpath, ← hreadOnly]

/-- After a publication the file of a store holds what was published. -/
theorem file_publish (w : Workspace) (c : Contents) (p : Place) (hplace : place = some p) (d : Contents) (mtime : Int)
    (h : (w.publish place c).files.node? p = some (.store d mtime)) : d = c := by
  subst hplace
  cases hnode : w.files.node? p with
  | some n =>
    cases n with
    | store c₀ mtime₀ =>
      rw [node?_publish hnode] at h
      exact (Node.store.inj (Option.some.inj h)).1.symm
    | _ =>
      unfold publish at h
      simp [hnode] at h
  | none =>
    unfold publish at h
    simp [hnode] at h

theorem Offers.beside (h : w.Offers id place source s) (hb : Beside id place w w') : w'.Offers id place source s := by
  obtain ⟨k, hk, hopen, hplace, hs⟩ := h.connection
  refine ⟨h.other, k, (hb.others source h.other).trans hk, hopen, hplace, hs ▸ ?_⟩
  unfold storeOf
  cases hp : k.place with
  | none => rfl
  | some p =>
    rcases hb.files.nodes p with hnode | ⟨hsame, -⟩
    · simp only [hnode]
    · exact absurd hsame (hplace p hp)

end Workspace

open Workspace

namespace WorkM

/-- Beside the first workspace, the operation does to the connection what the other one does to the store that it
sees. -/
def Tracks (w₀ : Workspace) (id : Nat) (place : Option Place) {α : Type} (x : WorkM α) (y : StoreM α) : Prop :=
  ∀ w s, Beside id place w₀ w → w.Sees id place s →
    ∃ w', x w = ((y s).1, w') ∧ w'.Sees id place (y s).2 ∧ Beside id place w₀ w'

namespace Tracks

variable {α β : Type} {w₀ : Workspace} {id : Nat} {place : Option Place}

theorem pure (a : α) : Tracks w₀ id place (pure a) (pure a) :=
  fun w _ hb hs => ⟨w, rfl, hs, hb⟩

theorem throw (e : Failure) : Tracks w₀ id place (throw e : WorkM α) (throw e) :=
  fun w _ hb hs => ⟨w, rfl, hs, hb⟩

theorem bind {x : WorkM α} {y : StoreM α} {f : α → WorkM β} {g : α → StoreM β} (hx : Tracks w₀ id place x y)
    (hf : ∀ a, Tracks w₀ id place (f a) (g a)) : Tracks w₀ id place (x >>= f) (y >>= g) := by
  intro w s hb hs
  obtain ⟨w₁, hx₁, hs₁, hb₁⟩ := hx w s hb hs
  rw [bind_apply, hx₁, StoreM.bind_apply]
  rcases hy : y s with ⟨e | a, s₁⟩ <;> rw [hy] at hs₁
  · exact ⟨w₁, rfl, hs₁, hb₁⟩
  · exact hf a w₁ s₁ hb₁ hs₁

theorem tryCatch {x : WorkM α} {y : StoreM α} {f : Failure → WorkM α} {g : Failure → StoreM α}
    (hx : Tracks w₀ id place x y) (hf : ∀ e, Tracks w₀ id place (f e) (g e)) :
    Tracks w₀ id place (tryCatch x f) (tryCatch y g) := by
  intro w s hb hs
  obtain ⟨w₁, hx₁, hs₁, hb₁⟩ := hx w s hb hs
  rw [tryCatch_apply, hx₁, StoreM.tryCatch_apply]
  rcases hy : y s with ⟨e | a, s₁⟩ <;> rw [hy] at hs₁
  · exact hf e w₁ s₁ hb₁ hs₁
  · exact ⟨w₁, rfl, hs₁, hb₁⟩

theorem attempt {x : WorkM PUnit} {y : StoreM PUnit} (h : Tracks w₀ id place x y) (caught : Bool) :
    Tracks w₀ id place (WorkM.attempt caught x) (StoreM.attempt caught y) := by
  cases caught with
  | false => exact h
  | true => exact h.tryCatch fun _ => pure _

/-- An operation on the store of the connection. -/
theorem onStore {R : Contents → Contents → Prop} {x : StoreM α} (hx : StoreM.Acts R x) :
    Tracks w₀ id place (onStore id x) x := by
  intro w s hb hs
  obtain ⟨k, hk, hopen, rfl, rfl⟩ := hs.connection
  refine ⟨_, onStore_apply hk hopen x, ?_, hb.trans (keep_beside id k _)⟩
  by_cases hidle : k.transaction = .idle
  · have honly := hx.only (s := w.storeOf k) hidle
    have htransaction := hx.idle (s := w.storeOf k) hidle
    refine sees_of_holding (connection?_keep hk _) hopen rfl (by rw [honly]; rfl) (by rw [honly]; rfl) ?_
      fun _ => htransaction
    rw [keep_idle id hidle, htransaction]
    exact file_publish _ _
  · obtain ⟨c, t, hleft, hrestore⟩ := hx.restores (s := w.storeOf k) hidle
    refine sees_of_holding (connection?_keep hk _) hopen rfl (by rw [hleft]; rfl) (by rw [hleft]; rfl) ?_ ?_
    · rw [hleft, hrestore]
      unfold keep
      simp only [hidle, if_false]
      exact hs.file
    · rw [hleft]
      exact fun hdepth => absurd (hs.outside hdepth) hidle

/-! Blocks -/

theorem enter : Tracks w₀ id place (enter id) (modify Store.enter) := by
  intro w s hb hs
  obtain ⟨k, hk, hopen, rfl, rfl⟩ := hs.connection
  refine ⟨w.setConnection id (k.holding (w.storeOf k).enter), ?_, ?_, hb.trans (setConnection_beside id k.place _)⟩
  · unfold WorkM.enter
    rw [bind_apply, openConnection_apply hk hopen]
    rfl
  · refine sees_of_holding (connection?_setConnection hk) hopen rfl rfl rfl (fun p hp c mtime hnode => ?_) nofun
    rw [hs.file p hp c mtime hnode]
    change _ = Transaction.restore (w.storeOf k).enter.transaction (w.storeOf k).contents
    unfold Store.enter
    dsimp only
    split
    next hdepth =>
      rw [hs.outside hdepth]
      rfl
    next => rfl

theorem leave : Tracks w₀ id place (leave id) StoreM.leave := by
  intro w s hb hs
  obtain ⟨k, hk, hopen, rfl, rfl⟩ := hs.connection
  have hstate := StoreM.leave_state (w.storeOf k)
  have hrun : StoreM.leave.run.run (w.storeOf k) = StoreM.leave (w.storeOf k) := rfl
  rcases hleave : StoreM.leave (w.storeOf k) with ⟨r, s'⟩
  rw [hleave] at hstate hrun
  obtain rfl : s' = _ := hstate
  let s' : Store :=
    { w.storeOf k with
      depth := (w.storeOf k).depth - 1
      transaction := if (w.storeOf k).depth - 1 = 0 then .idle else (w.storeOf k).transaction }
  let u := w.setConnection id (k.holding s')
  refine ⟨if s'.transaction = .idle then u.publish k.place s'.contents else u, ?_, ?_, hb.trans ?_⟩
  · unfold WorkM.leave
    rw [bind_apply, connection_apply hk]
    simp only [hopen, Bool.not_true, Bool.false_eq_true, if_false]
    rw [get_apply, hrun]
    cases r <;> rfl
  · have hconnection : u.connection? id = some (k.holding s') := connection?_setConnection hk
    have houtside : s'.depth = 0 → s'.transaction = .idle := fun hdepth => if_pos hdepth
    change Sees _ id k.place s'
    split
    next hidle =>
      refine sees_of_holding ((connection?_publish u k.place s'.contents id).trans hconnection) hopen rfl rfl rfl ?_
        houtside
      rw [hidle]
      exact file_publish u s'.contents
    next hunder =>
      refine sees_of_holding hconnection hopen rfl rfl rfl ?_ houtside
      have hsame : s'.transaction = (w.storeOf k).transaction := if_neg fun hdepth => hunder (houtside hdepth)
      rw [hsame]
      exact hs.file
  · split
    · exact (setConnection_beside id k.place _).trans (publish_beside id k.place u _)
    · exact setConnection_beside id k.place _

theorem abandon : Tracks w₀ id place (abandon id) StoreM.abandon := by
  intro w s hb hs
  obtain ⟨k, hk, hopen, rfl, rfl⟩ := hs.connection
  have hstate := StoreM.abandon_state (w.storeOf k)
  have hrun : StoreM.abandon.run.run (w.storeOf k) = StoreM.abandon (w.storeOf k) := rfl
  rcases habandon : StoreM.abandon (w.storeOf k) with ⟨r, s'⟩
  rw [habandon] at hstate hrun
  refine ⟨w.setConnection id (k.holding s'), ?_, ?_, hb.trans (setConnection_beside id k.place _)⟩
  · unfold WorkM.abandon
    rw [bind_apply, connection_apply hk]
    simp only [hopen, Bool.not_true, Bool.false_eq_true, if_false]
    rw [get_apply, hrun]
    cases r <;> rfl
  · refine sees_of_holding (connection?_setConnection hk) hopen rfl (by rw [hstate]; rfl) (by rw [hstate]; rfl)
      (fun p hp c mtime hnode => ?_) ?_
    · rw [hs.file p hp c mtime hnode, hstate]
      dsimp only
      split <;> rfl
    · rw [hstate]
      exact fun hdepth => if_pos hdepth

theorem transaction {x : WorkM α} {y : StoreM α} (h : Tracks w₀ id place x y) :
    Tracks w₀ id place (WorkM.transaction id x) (StoreM.transaction y) :=
  enter.bind fun _ => (h.tryCatch fun e => abandon.bind fun _ => throw e).bind fun a => leave.bind fun _ => pure a

/-- A copy of what another connection offers. -/
theorem copy {source : Nat} {d : Store} (hd : w₀.Offers id place source d) (hunread : id ∉ w₀.reading) :
    Tracks w₀ id place (copy source id) (StoreM.replaceBy d) := by
  intro w s hb hs
  obtain ⟨k, hk, hopen, rfl, rfl⟩ := hs.connection
  obtain ⟨ks, hks, hsource, -, rfl⟩ := (hd.beside hb).connection
  have hfree : w.reading.contains id = false := by simpa [hb.reading] using hunread
  have hreadOnly : (w.storeOf k).readOnly = k.readOnly := rfl
  have htransaction : (w.storeOf k).transaction = k.transaction := rfl
  rw [StoreM.replaceBy_apply, hreadOnly, htransaction]
  unfold WorkM.copy
  rw [bind_apply, connection_apply hk]
  dsimp only
  split
  · exact ⟨w, rfl, hs, hb⟩
  · rw [bind_apply, openConnection_apply hks hsource]
    dsimp only
    rw [bind_apply, openConnection_apply hk hopen]
    simp only [hd.other, if_false]
    rw [get_apply]
    simp only [hfree, Bool.or_false]
    split
    · exact ⟨w, rfl, hs, hb⟩
    next hrunning =>
      let s' : Store := { w.storeOf k with contents := (w.storeOf ks).contents }
      let u := w.setConnection id (k.holding s')
      refine ⟨u.publish k.place s'.contents, rfl, ?_, ?_⟩
      · refine sees_of_holding (s := s') ((connection?_publish u k.place s'.contents id).trans
          (connection?_setConnection hk)) hopen rfl rfl rfl ?_ hs.outside
        have hrestore : s'.transaction.restore s'.contents = s'.contents := by
          change k.transaction.restore _ = _
          cases ht : k.transaction with
          | running saved => exact absurd (congrArg Transaction.isRunning ht) hrunning
          | _ => rfl
        rw [hrestore]
        exact file_publish u s'.contents
      · exact hb.trans ((setConnection_beside id k.place _).trans (publish_beside id k.place u _))

end Tracks

theorem outcome_apply (x : WorkM PUnit) (w : Workspace) : outcome x w = (.ok (x w).1, (x w).2) := by
  unfold outcome
  rw [tryCatch_apply, bind_apply]
  rcases x w with ⟨e | a, w'⟩ <;> rfl

end WorkM

/-! ## Scripts -/

namespace Script

variable {w : Workspace} {id : Nat} {place : Option Place} {given : Nat → Store} {s : Store}

/-- A script does on a connection what it does on the store that the connection sees. -/
theorem run_tracks (hunread : id ∉ w.reading) (b : Script)
    (hgiven : ∀ n ∈ b.sources, w.Offers id place n (given n)) :
    WorkM.Tracks w id place (b.run id) (b.on given) := by
  induction b with
  | done => exact .pure _
  | raise e => exact .throw e
  | write write caught rest ih => exact ((WorkM.Tracks.onStore write.acts).attempt caught).bind fun _ => ih hgiven
  | copy source caught rest ih =>
    obtain ⟨hsource, hrest⟩ := List.forall_mem_cons.1 hgiven
    exact ((WorkM.Tracks.copy hsource hunread).attempt caught).bind fun _ => ih hrest
  | block body caught rest ihbody ih =>
    obtain ⟨hbody, hrest⟩ := List.forall_mem_append.1 hgiven
    exact ((ihbody hbody).transaction.attempt caught).bind fun _ => ih hrest

end Script

/-! Three blocks on a store in a file: the first begins with a copy of another store, and in it an inner block fails at
the second of two rows and is caught; the second is given up around an inner one that went well; the third counts on
from the first. -/

namespace GivenUp

def other : Contents :=
  Contents.empty.addFile { path := "z.ads" }

def start : Workspace :=
  { files := ⟨[], [(["x.db"], .store .empty 0)], []⟩
    connections := [{ path := "x.db", readOnly := false, place := some ["x.db"], contents := .empty },
      { path := memoryPath, readOnly := false, place := none, contents := other }] }

def kept : Script :=
  .copy 1 false <| .write (.ensureFile "a.ads") false <|
    .block (.write (.putEntity "P" "package" 2 1 1) false <|
      .write (.putDeclarations [⟨1, 2, true⟩, ⟨9, 2, true⟩]) false .done) true .done

def lost : Script :=
  .write (.ensureFile "b.ads") false <| .block (.write (.ensureFile "c.ads") false .done) false <| .raise .abandoned

def last : Script :=
  .write (.ensureFile "d.ads") false .done

theorem sees_start : start.Sees 0 (some ["x.db"]) (Contents.empty.idle "x.db") where
  connection := ⟨_, rfl, rfl, rfl, rfl⟩
  file := by
    rintro p ⟨⟩ c mtime ⟨⟩
    rfl
  outside _ := rfl

theorem offers_start : start.Offers 0 (some ["x.db"]) 1 (other.idle memoryPath) where
  other := by decide
  connection := ⟨_, rfl, rfl, nofun, rfl⟩

end GivenUp

/-! A block that is given up after another store was copied into its own, before its first statement, and one in which
a write found no room: what it does afterwards is no longer part of a transaction. -/

namespace NotTakenBack

def copying : Script :=
  .copy 1 false <| .raise .abandoned

/-- No file can get an id any more. -/
def filled : Contents :=
  { Contents.empty with lastFile := Contents.largestId }

def exhausting : Script :=
  .block (.write (.ensureFile "a.ads") false .done) true <| .write (.setSetting "k" "v") false <| .raise .abandoned

def start (c : Contents) : Workspace :=
  { files := ⟨[], [], []⟩
    connections := [{ path := memoryPath, readOnly := false, place := none, contents := c },
      { path := memoryPath, readOnly := false, place := none, contents := GivenUp.other }] }

/-- What the first connection, to a store in memory, holds. -/
def held (w : Workspace) : Option Contents :=
  (w.connection? 0).map (·.contents)

end NotTakenBack

end Crossref
