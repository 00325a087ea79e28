/-
Connections that hold contents. `Workspace.Holds` says of a connection that it is
open for writing, that no transaction is open on it and no rows of it are still to
come, and what contents it sees. Operations on the store of such a connection,
copies into it and connections that come and go beside it leave it so.
-/
import Crossref.Proofs.Update.Merging
import Crossref.Proofs.Workspace.Files
import Crossref.Workspace

namespace Crossref

/-! ## Operations on a workspace -/

namespace WorkM

variable {α β : Type}

theorem bind_apply (x : WorkM α) (f : α → WorkM β) (w : Workspace) :
    (x >>= f) w =
      match x w with
      | (.ok a, w) => f a w
      | (.error e, w) => (.error e, w) := by
  change (ExceptT.bind x f : ExceptT Failure (StateM Workspace) β) w = _
  unfold ExceptT.bind ExceptT.mk ExceptT.bindCont
  simp only [bind, StateT.bind]
  rcases x w with ⟨_ | _, _⟩ <;> rfl

theorem get_apply (f : Workspace → WorkM α) (w : Workspace) : (get >>= f) w = f w w := rfl

theorem ofExcept_apply (r : Except Failure α) (w : Workspace) : (ofExcept r) w = (r, w) := by
  cases r <;> rfl

theorem ite_bind (b : Bool) (x y : WorkM α) (f : α → WorkM β) :
    (if b then x >>= f else y >>= f) = (if b then x else y) >>= f := by
  cases b <;> rfl

theorem tryCatch_apply {α : Type} (x : WorkM α) (h : Failure → WorkM α) (w : Workspace) :
    (tryCatch x h) w =
      match x w with
      | (.ok a, w') => (.ok a, w')
      | (.error e, w') => h e w' := by
  change (ExceptT.tryCatch x h : ExceptT Failure (StateM Workspace) α) w = _
  unfold ExceptT.tryCatch ExceptT.mk
  simp only [bind, StateT.bind]
  rcases x w with ⟨_ | _, _⟩ <;> rfl

/-- The last operation is carried out also after a failure. -/
theorem tryFinally_apply (x : WorkM α) (y : WorkM PUnit) (w : Workspace) :
    tryFinally x y w =
      match y (x w).2 with
      | (.ok _, w') => ((x w).1, w')
      | (.error e, w') => (.error e, w') := by
  unfold tryFinally
  simp only [Functor.map, ExceptT.map, ExceptT.mk, tryFinally', bind, StateT.bind]
  rcases hx : x w with ⟨e | a, w₁⟩ <;> rcases hy : y w₁ with ⟨e' | b, w₂⟩ <;> simp [hy] <;> rfl

theorem connection_apply {w : Workspace} {id : Nat} {k : Connection} (h : w.connection? id = some k) :
    connection id w = (.ok k, w) := by
  unfold connection
  rw [get_apply, h]
  rfl

theorem openConnection_apply {w : Workspace} {id : Nat} {k : Connection}
    (h : w.connection? id = some k) (hopen : k.isOpen = true) : openConnection id w = (.ok k, w) := by
  unfold openConnection
  rw [bind_apply, connection_apply h]
  simp only [hopen, if_true]
  rfl

theorem close_apply {w : Workspace} {id : Nat} {k : Connection} (h : w.connection? id = some k) :
    close id w = (.ok ⟨⟩, w.setConnection id { k with isOpen := false }) := by
  unfold close
  rw [bind_apply, connection_apply h]
  rfl

theorem onStore_apply {w : Workspace} {id : Nat} {k : Connection} (h : w.connection? id = some k)
    (hopen : k.isOpen = true) (x : StoreM α) :
    onStore id x w = ((x (w.storeOf k)).1, w.keep id k (x (w.storeOf k)).2) := by
  have hrun : x.run.run (w.storeOf k) = x (w.storeOf k) := rfl
  unfold onStore
  rw [bind_apply, openConnection_apply h hopen]
  dsimp only
  rw [get_apply, hrun]
  rcases x (w.storeOf k) with ⟨e | a, s⟩ <;> rfl

end WorkM

/-! ## What a connection holds -/

/-- The connection is open for writing, no transaction is under way on it, and no block is open. -/
structure Connection.Idle (k : Connection) (path : String) (place : Option Place) : Prop where
  path : k.path = path
  place : k.place = place
  writable : k.readOnly = false
  isOpen : k.isOpen = true
  depth : k.depth = 0
  transaction : k.transaction = .idle

namespace Workspace

/-- The connection, which may be closed, sees the contents. -/
def Shows (w : Workspace) (id : Nat) (c : Contents) : Prop :=
  ∃ k, w.connection? id = some k ∧ (w.storeOf k).contents = c

structure Holds (w : Workspace) (id : Nat) (path : String) (place : Option Place) (c : Contents) :
    Prop where
  connection : ∃ k, w.connection? id = some k ∧ k.Idle path place ∧ (place = none → k.contents = c)
  file : ∀ p, place = some p → ∃ mtime, w.files.node? p = some (.store c mtime)
  unread : id ∉ w.reading
  reading : ∀ r ∈ w.reading, r < w.connections.length

/-- The second workspace has the same connections but for this one, and the same files but for
the store at the place. -/
structure Beside (id : Nat) (place : Option Place) (w w' : Workspace) : Prop where
  files : FileTree.Alike place w.files w'.files
  length : w'.connections.length = w.connections.length
  others : ∀ i, i ≠ id → w'.connection? i = w.connection? i
  reading : w'.reading = w.reading

variable {w w' w'' : Workspace} {id : Nat} {path : String} {place : Option Place} {c : Contents}

theorem Beside.refl (w : Workspace) : Beside id place w w :=
  ⟨.refl _, rfl, fun _ _ => rfl, rfl⟩

theorem Beside.trans (h : Beside id place w w') (h' : Beside id place w' w'') : Beside id place w w'' :=
  ⟨h.files.trans h'.files, h'.length.trans h.length, fun i hi => (h'.others i hi).trans (h.others i hi),
    h'.reading.trans h.reading⟩

theorem lt_of_connection? {k : Connection} (h : w.connection? id = some k) :
    id < w.connections.length :=
  (List.getElem?_eq_some_iff.1 h).1

theorem setConnection_beside (id : Nat) (place : Option Place) (k : Connection) :
    Beside id place w (w.setConnection id k) :=
  ⟨.refl _, List.length_set, fun _ hi => List.getElem?_set_ne (Ne.symm hi), rfl⟩

theorem connection?_setConnection {k k' : Connection} (h : w.connection? id = some k) :
    (w.setConnection id k').connection? id = some k' :=
  List.getElem?_set_self (lt_of_connection? h)

theorem publish_beside (id : Nat) (place : Option Place) (w : Workspace) (c : Contents) :
    Beside id place w (w.publish place c) := by
  unfold publish
  split
  · exact .refl w
  next p =>
    split
    next d mtime hnode => exact ⟨.put_store hnode c, rfl, fun _ _ => rfl, rfl⟩
    · exact .refl w

theorem connection?_publish (w : Workspace) (place : Option Place) (c : Contents) (i : Nat) :
    (w.publish place c).connection? i = w.connection? i := by
  unfold publish
  split
  · rfl
  · split <;> rfl

theorem node?_publish {p : Place} {d : Contents} {mtime : Int}
    (h : w.files.node? p = some (.store d mtime)) (c : Contents) :
    (w.publish (some p) c).files.node? p = some (.store c mtime) := by
  unfold publish
  simp only [h]
  exact FileTree.node?_put_self (FileTree.ne_root_of_store h) _

theorem keep_idle (id : Nat) {k : Connection} (hk : k.transaction = .idle) (s : Store) :
    w.keep id k s = (w.setConnection id (k.holding s)).publish k.place s.contents :=
  if_pos hk

theorem connection?_keep {k : Connection} (hk : w.connection? id = some k) (s : Store) :
    (w.keep id k s).connection? id = some (k.holding s) := by
  unfold keep
  dsimp only
  split
  · rw [connection?_publish]
    exact connection?_setConnection hk
  · exact connection?_setConnection hk

/-- What the store of a connection became is taken over by nothing but the connection and its
file. -/
theorem keep_beside (id : Nat) (k : Connection) (s : Store) : Beside id k.place w (w.keep id k s) := by
  unfold keep
  dsimp only
  split
  · exact (setConnection_beside id k.place _).trans (publish_beside id k.place _ s.contents)
  · exact setConnection_beside id k.place _

namespace Holds

theorem connection_lt (h : w.Holds id path place c) : id < w.connections.length := by
  obtain ⟨k, hk, -⟩ := h.connection
  exact lt_of_connection? hk

/-- The store that the connection gives is the idle one with the contents. -/
theorem store (h : w.Holds id path place c) {k : Connection} (hk : w.connection? id = some k) :
    w.storeOf k = c.idle path ∧ k.Idle path place := by
  obtain ⟨k', hk', hidle, hcontents⟩ := h.connection
  obtain rfl := Option.some.inj (hk.symm.trans hk')
  refine ⟨?_, hidle⟩
  unfold storeOf Contents.idle
  rw [hidle.path, hidle.place, hidle.writable, hidle.depth, hidle.transaction]
  cases hplace : place with
  | none => simp only [hcontents hplace]
  | some p =>
    obtain ⟨mtime, hnode⟩ := h.file p hplace
    simp only [Transaction.isRunning, Bool.false_eq_true, if_false, hnode]

/-- The connection can be copied from. -/
theorem source (h : w.Holds id path place c) :
    ∃ k, w.connection? id = some k ∧ k.isOpen = true ∧ (w.storeOf k).contents = c := by
  obtain ⟨k, hk, hidle, -⟩ := h.connection
  exact ⟨k, hk, hidle.isOpen, congrArg Store.contents (h.store hk).1⟩

theorem shows (h : w.Holds id path place c) : w.Shows id c := by
  obtain ⟨k, hk, -, hc⟩ := h.source
  exact ⟨k, hk, hc⟩

/-- The connection holds what is kept of its store. -/
theorem keep (h : w.Holds id path place c) {k : Connection} (hk : w.connection? id = some k) {s : Store}
    (hs : s.Idle) : (w.keep id k s).Holds id path place s.contents := by
  obtain ⟨-, hidle⟩ := h.store hk
  have hbeside := keep_beside (w := w) id k s
  refine ⟨⟨k.holding s, connection?_keep hk s,
    ⟨hidle.path, hidle.place, hidle.writable, hidle.isOpen, hs.depth, hs.transaction⟩, fun _ => rfl⟩,
    fun p hp => ?_, hbeside.reading ▸ h.unread, hbeside.length ▸ hbeside.reading ▸ h.reading⟩
  · obtain ⟨mtime, hnode⟩ := h.file p hp
    rw [keep_idle id hidle.transaction, hidle.place, hp]
    exact ⟨mtime, node?_publish (w := w.setConnection id _) hnode s.contents⟩

/-- What happens to another connection and another store does not matter. -/
theorem beside {id' : Nat} {place' : Option Place} (h : w.Holds id path place c)
    (hb : Beside id' place' w w') (hid : id ≠ id') (hplace : ∀ p, place = some p → place' ≠ some p) :
    w'.Holds id path place c := by
  refine ⟨?_, fun p hp => ?_, hb.reading ▸ h.unread, hb.length ▸ hb.reading ▸ h.reading⟩
  · rw [hb.others id hid]
    exact h.connection
  · obtain ⟨mtime, hnode⟩ := h.file p hp
    rcases hb.files.nodes p with heq | ⟨hp', -⟩
    · exact ⟨mtime, heq ▸ hnode⟩
    · exact absurd hp' (hplace p hp)

end Holds

end Workspace

open Workspace

namespace WorkM

variable {α : Type} {w : Workspace} {id : Nat} {path : String} {place : Option Place} {c : Contents}

/-- An operation on the store of a connection does what it does on the idle store with its
contents. -/
theorem onStore_holds (h : w.Holds id path place c) {x : StoreM α} {r : Except Failure α} {s : Store}
    (hx : x (c.idle path) = (r, s)) (hs : s.Idle) :
    ∃ w', onStore id x w = (r, w') ∧ w'.Holds id path place s.contents ∧ Beside id place w w' := by
  obtain ⟨k, hk, hidle, -⟩ := h.connection
  have hbeside := keep_beside (w := w) id k s
  rw [hidle.place] at hbeside
  refine ⟨_, ?_, h.keep hk hs, hbeside⟩
  rw [onStore_apply hk hidle.isOpen, (h.store hk).1, hx]

/-- A copy puts what the source shows into the target. -/
theorem copy_holds {source : Nat} {d : Contents} (h : w.Holds id path place c) {ks : Connection}
    (hks : w.connection? source = some ks) (hopen : ks.isOpen = true)
    (hd : (w.storeOf ks).contents = d) (hne : source ≠ id) :
    ∃ w', copy source id w = (.ok ⟨⟩, w') ∧ w'.Holds id path place d ∧ Beside id place w w' := by
  obtain ⟨k, hk, hidle, -⟩ := h.connection
  have hkeep := h.keep hk (d.isIdle_idle path)
  have hbeside := keep_beside (w := w) id k (d.idle path)
  have hset : w.keep id k (d.idle path) = (w.setConnection id { k with contents := d }).publish k.place d := by
    rw [keep_idle id hidle.transaction]
    unfold Connection.holding Contents.idle
    rw [← hidle.depth, ← hidle.transaction]
  rw [hidle.place] at hbeside
  refine ⟨_, ?_, hkeep, hbeside⟩
  rw [hset]
  have hunread : w.reading.contains id = false := by simpa using h.unread
  have hwritable : ¬k.readOnly = true := by simp [hidle.writable]
  unfold copy
  rw [bind_apply, connection_apply hk]
  dsimp only
  rw [if_neg hwritable, bind_apply, openConnection_apply hks hopen]
  dsimp only
  rw [bind_apply, openConnection_apply hk hidle.isOpen]
  simp only [hne, if_false]
  rw [get_apply]
  have hfree : (k.transaction.isRunning || w.reading.contains id) = false := by
    rw [hidle.transaction, hunread]
    rfl
  simp only [hfree, hd, Bool.false_eq_true, if_false]
  rfl

end WorkM

end Crossref
