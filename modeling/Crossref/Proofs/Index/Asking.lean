/-
Questions to an index, answered. An index that is attached to an open store answers
from the contents of the store, and the cursor that it hands out passes all that
the question found, in order.
-/
import Crossref.Index
import Crossref.Proofs.Cursor.Sound
import Crossref.Proofs.Store.Answers
import Crossref.Proofs.Workspace.Target

namespace Crossref

/-! ## Questions -/

open WorkM

namespace Index

/-- Questions are answered from the contents: the index is attached to an open store that holds
them, and no update is running. -/
structure Asks (x : Index) (w : Workspace) (c : Contents) : Prop where
  admitted : ∃ id k, x.admitQuestion = .ok id ∧ w.connection? id = some k ∧ k.isOpen = true ∧
    (w.storeOf k).contents = c

variable {α : Type} {x : Index} {w : Workspace} {c : Contents}

theorem ask_apply {id : Nat} {k : Connection} (hk : w.connection? id = some k)
    (hopen : k.isOpen = true) {question : StoreM α} {a : α} {s : Store}
    (hq : question (w.storeOf k) = (.ok a, s)) : ask id question w = (.ok a, w.keep id k s) := by
  unfold ask
  rw [bind_apply, connection_apply hk]
  dsimp only
  rw [tryCatch_apply, onStore_apply hk hopen, hq]

theorem connection_isSome {id : Nat} (h : x.admitQuestion = .ok id) : x.connection.isSome = true := by
  unfold admitQuestion at h
  split at h
  · cases h
  next hid => rw [hid]; rfl

/-- The answer to a question that the store answers from its contents. -/
theorem Asks.ask {id : Nat} (h : x.Asks w c) (hid : x.admitQuestion = .ok id) {question : StoreM α}
    {a : α} (hq : ∀ s : Store, s.contents = c → question s = (.ok a, s.start)) :
    ∃ k, Index.ask id question w = (.ok a, w.keep id k (w.storeOf k).start) ∧ k.isOpen = true ∧
      w.connection? id = some k := by
  obtain ⟨id', k, hid', hk, hopen, hc⟩ := h.admitted
  obtain rfl : id = id' := Except.ok.inj (hid.symm.trans hid')
  exact ⟨k, ask_apply hk hopen (hq _ hc), hopen, hk⟩

theorem mem_handOut (x : Index) (held : HeldCursor) :
    (x.handOut held).1.cursors[(x.handOut held).2]? = some held := by
  simp [handOut]

/-- A cursor of the present generation may be looked at. -/
theorem admitLook_handOut {id : Nat} (h : x.admitQuestion = .ok id) {held : HeldCursor}
    (hgeneration : held.generation = x.generation) : (x.handOut held).1.admitLook held = .ok () := by
  have hsome : x.connection.isSome = true := connection_isSome h
  simp only [admitLook, handOut, hgeneration, hsome, decide_true, Bool.and_self, if_true]

/-- The cursor that is handed out for a question stands before all that the question found. -/
theorem Asks.openCursor_apply {id : Nat} (h : x.Asks w c) (hid : x.admitQuestion = .ok id) (finding : α → Finding)
    {question : StoreM (List α)} {rows : List α} (hq : ∀ s : Store, s.contents = c → question s = (.ok rows, s.start)) :
    ∃ w', x.openCursor finding question w =
        (.ok (x.handOut ⟨.ofRows (rows.map finding), x.generation, some id, true⟩), w') ∧
      ∃ k, w'.connection? id = some k ∧ k.isOpen = true := by
  obtain ⟨k, hask, hopen, hk⟩ := h.ask hid hq
  refine ⟨w.keep id k (w.storeOf k).start, ?_, _, Workspace.connection?_keep hk (w.storeOf k).start, hopen⟩
  unfold openCursor
  rw [hid, bind_apply]
  change (Index.ask id question >>= _) w = _
  rw [bind_apply, hask]
  rfl

/-- **All that a question finds is found through the cursor that is handed out for it.** -/
theorem Asks.findings (h : x.Asks w c) {finding : α → Finding} {question : StoreM (List α)}
    {rows : List α} (hq : ∀ s : Store, s.contents = c → question s = (.ok rows, s.start))
    (hmeant : ∀ r ∈ rows, (finding r).meaning = .ok (some (finding r))) :
    (Index.findings (x.openCursor finding question) w).1 = .ok (rows.map finding) := by
  obtain ⟨id, _, hid, -⟩ := h.admitted
  obtain ⟨w', hopened, k, hk, hopen⟩ := h.openCursor_apply hid finding hq
  let held : HeldCursor := ⟨.ofRows (rows.map finding), x.generation, some id, true⟩
  have hlook : (x.handOut held).1.admitLook held = .ok () := admitLook_handOut hid rfl
  have hfetch : admitFetch w' held = .ok () := by
    unfold admitFetch
    simp only [held, Option.bind_some, hk, hopen, if_true]
  have hlist : ((x.handOut held).1.toList w' held).1 = .ok ((rows.map finding).map some) := by
    unfold Index.toList
    rw [hlook, hfetch]
    refine Cursor.toList_ofRows fun f hf => ?_
    obtain ⟨r, hr, rfl⟩ := List.mem_map.1 hf
    exact hmeant r hr
  unfold Index.findings
  rw [bind_apply, hopened]
  dsimp only
  rw [mem_handOut]
  dsimp only
  rw [get_apply, hlist]
  change (Except.ok (((rows.map finding).map some).filterMap fun f => f) : Except Failure _) = _
  simp [List.filterMap_map]

end Index

end Crossref
