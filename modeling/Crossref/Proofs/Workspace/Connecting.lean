/-
Connections that come and go. A connection that is made stands behind all others
and is known by their number; the others do not notice. What a file must hold to be
opened as a store is asked of the file alone, so on trees that are alike the same
paths are opened and refused.
-/
import Crossref.Proofs.Store.Answers
import Crossref.Proofs.Workspace.Target

namespace Crossref

theorem WorkM.readPlace_alike {t t' : FileTree} {place : Option Place} (h : FileTree.Alike place t t') (path : String) :
    readPlace t path = readPlace t' path := by
  have hstore : t.storePlace? = t'.storePlace? := funext h.storePlace?
  unfold readPlace
  dsimp only
  rw [h.resolve, hstore]

namespace FileTree

/-- The contents of the store at a path, if they are an index of this version. -/
def index? (t : FileTree) (path : String) : Option Contents :=
  match WorkM.readPlace t path with
  | .error _ => none
  | .ok q =>
    match t.node? q with
    | some (.store c _) => if c.IsIndex then some c else none
    | _ => none

theorem Alike.index?_eq {t t' : FileTree} (h : Alike none t t') (path : String) :
    t.index? path = t'.index? path := by
  have hnode : t.node? = t'.node? := funext h.node?_eq
  unfold index?
  rw [WorkM.readPlace_alike h, hnode]

end FileTree

namespace Workspace

def add (w : Workspace) (k : Connection) : Workspace :=
  { w with connections := w.connections ++ [k] }

variable {w : Workspace} {id : Nat} {path : String} {place : Option Place} {c : Contents} {k : Connection}

theorem connection?_add_self (w : Workspace) (k : Connection) :
    (w.add k).connection? w.connections.length = some k := by
  simp [add, connection?]

theorem connection?_add (hid : id < w.connections.length) (k : Connection) :
    (w.add k).connection? id = w.connection? id :=
  List.getElem?_append_left hid

theorem Holds.add (h : w.Holds id path place c) (k : Connection) : (w.add k).Holds id path place c where
  connection := by
    rw [connection?_add h.connection_lt]
    exact h.connection
  file := h.file
  unread := h.unread
  reading r hr := by
    have hlt := h.reading r hr
    simp only [Workspace.add, List.length_append, List.length_singleton]
    omega

/-- A connection is open for writing when it is made, and nothing of it is read. -/
theorem Holds.added (h : w.Holds id path place c) {path' : String} {place' : Option Place} {d : Contents}
    (hk : k.Idle path' place') (hd : place' = none → k.contents = d)
    (hfile : ∀ p, place' = some p → ∃ mtime, w.files.node? p = some (.store d mtime)) :
    (w.add k).Holds w.connections.length path' place' d where
  connection := ⟨k, connection?_add_self w k, hk, hd⟩
  file := hfile
  unread hmem := Nat.lt_irrefl _ (h.reading _ hmem)
  reading := (h.add k).reading

end Workspace

open Workspace

namespace WorkM

variable {α : Type} {w : Workspace}

/-- What is done with a connection of its own: the connection is made, used and closed. -/
theorem withConnection_apply {path : String} {readOnly : Bool} {body : Nat → WorkM α} {id : Nat}
    {w₁ w₂ : Workspace} {r : Except Failure α} {k : Connection}
    (hconnect : connect path readOnly w = (.ok id, w₁)) (hbody : body id w₁ = (r, w₂))
    (hk : w₂.connection? id = some k) :
    withConnection path readOnly body w = (r, w₂.setConnection id { k with isOpen := false }) := by
  unfold withConnection
  rw [bind_apply, hconnect]
  simp only [tryFinally_apply, hbody, close_apply hk]

theorem withConnection_error {path : String} {readOnly : Bool} {body : Nat → WorkM α} {e : Failure}
    {w₁ : Workspace} (hconnect : connect path readOnly w = (.error e, w₁)) :
    withConnection path readOnly body w = (.error e, w₁) := by
  unfold withConnection
  rw [bind_apply, hconnect]

/-! ## Opening -/

/-- A connection to a store in memory. -/
def memoryConnection (path : String) : Connection :=
  { path, readOnly := false, place := none, contents := .empty }

theorem connect_memory {path : String} (h : path = memoryPath ∨ path = "") :
    connect path false w = (.ok w.connections.length, w.add (memoryConnection path)) := by
  have hnul : path.toList.contains (Char.ofNat 0) = false := by rcases h with rfl | rfl <;> decide
  have hmemory : (path = memoryPath || path = "") = true := by simpa using h
  unfold connect
  simp only [hnul, Bool.false_eq_true, if_false, Bool.not_false, Bool.true_and, hmemory, if_true]
  rfl

/-- A connection to the file at a place. -/
def fileConnection (place : Place) (path : String) (readOnly : Bool) (d : Contents) : Connection :=
  { path, readOnly, place := some place, contents := d }

/-- What becomes of contents that are opened. -/
def opened (path : String) (readOnly : Bool) (d : Contents) : Except Failure Contents :=
  if d.tables.isEmpty then
    if readOnly then .error (.schema path .absent) else .ok .empty
  else (Store.checkSchema { path, readOnly, contents := d }).1.map fun _ => d

theorem ensureSchema_apply (path : String) (readOnly : Bool) (d : Contents) (w : Workspace) :
    ensureSchema path readOnly d w = (opened path readOnly d, w) := by
  unfold ensureSchema opened
  split
  · cases readOnly <;> rfl
  · rw [bind_apply]
    have hrun : Store.checkSchema.run.run { path, readOnly, contents := d } =
        Store.checkSchema { path, readOnly, contents := d } := rfl
    rw [hrun]
    cases (Store.checkSchema { path, readOnly, contents := d }).1 <;> rfl

theorem opened_readOnly {path : String} {d d' : Contents} (h : opened path true d = .ok d') :
    d' = d ∧ d.IsIndex := by
  unfold opened at h
  split at h
  · cases h
  · cases hcheck : (Store.checkSchema { path, readOnly := true, contents := d }).1 with
    | error e =>
      rw [hcheck] at h
      cases h
    | ok u =>
      rw [hcheck] at h
      exact ⟨(Except.ok.inj h).symm, Store.isIndex_of_checkSchema rfl hcheck⟩

/-- What opening a path for reading finds, and where. -/
def readable (t : FileTree) (path : String) : Except Failure (Place × Contents) :=
  if path.toList.contains (Char.ofNat 0) then .error .nulInPath
  else match readPlace t path with
    | .error e => .error e
    | .ok q =>
      match foundAt t q with
      | .nothing | .directory => .error (.connection (.cannotOpen path RowFault.unableToOpen.message))
      | .junk => .error (.connection (.cannotUse path .notADatabase))
      | .contents d => (opened path true d).map (q, ·)

theorem connect_readOnly (path : String) (w : Workspace) :
    connect path true w =
      match readable w.files path with
      | .error e => (.error e, w)
      | .ok (q, d) => (.ok w.connections.length, w.add (fileConnection q path true d)) := by
  unfold connect readable
  by_cases hnul : path.toList.contains (Char.ofNat 0) = true
  · simp only [hnul, if_true]
    rfl
  · simp only [hnul, Bool.false_eq_true, if_false, Bool.not_true, Bool.false_and, if_true]
    rw [bind_apply]
    unfold findReadOnly
    rw [get_apply]
    cases readPlace w.files path with
    | error e => rfl
    | ok q =>
      rw [bind_apply, ofExcept_apply]
      dsimp only
      cases foundAt w.files q with
      | nothing => rfl
      | directory => rfl
      | junk => rfl
      | contents d =>
        change (ensureSchema path true d >>= _) _ = _
        rw [bind_apply, ensureSchema_apply]
        dsimp only
        cases opened path true d <;> rfl

/-- A file that can be opened is a store, or there is nothing in it. -/
theorem foundAt_eq_contents {t : FileTree} {q : Place} {d : Contents} (h : foundAt t q = .contents d) :
    (∃ mtime, t.node? q = some (.store d mtime)) ∨ d = .blank := by
  unfold foundAt at h
  split at h
  · cases h
  · cases h
  next c mtime hnode =>
    obtain rfl := Found.contents.inj h
    exact .inl ⟨mtime, hnode⟩
  · split at h
    · exact .inr (Found.contents.inj h).symm
    · cases h

/-- What is opened for reading is an index, and stands in a file. -/
theorem index?_of_readable {t : FileTree} {path : String} {q : Place} {d : Contents}
    (h : readable t path = .ok (q, d)) : t.index? path = some d ∧ ∃ mtime, t.node? q = some (.store d mtime) := by
  unfold readable at h
  split at h
  · cases h
  · cases hplace : readPlace t path with
    | error e =>
      rw [hplace] at h
      cases h
    | ok q' =>
      rw [hplace] at h
      dsimp only at h
      split at h
      · cases h
      · cases h
      · cases h
      next found hfound =>
        cases hopened : opened path true found with
        | error e =>
          rw [hopened] at h
          cases h
        | ok d' =>
          rw [hopened] at h
          obtain ⟨rfl, rfl⟩ := Prod.mk.inj (Except.ok.inj h)
          obtain ⟨rfl, hindex⟩ := opened_readOnly hopened
          rcases foundAt_eq_contents hfound with ⟨mtime, hnode⟩ | rfl
          · refine ⟨?_, mtime, hnode⟩
            unfold FileTree.index?
            rw [hplace]
            dsimp only
            rw [hnode]
            exact if_pos hindex
          · cases hopened

/-- What is read depends on the nodes of the tree. -/
theorem readable_alike {t t' : FileTree} (h : FileTree.Alike none t t') (path : String) :
    readable t path = readable t' path := by
  have hfound : foundAt t = foundAt t' := by
    funext p
    unfold foundAt
    rw [h.node?_eq]
  unfold readable
  rw [readPlace_alike h, hfound]

/-- What opening a path for writing finds, and where, once the directories above it are there. -/
def writable (t : FileTree) (path : String) : Except Failure (Place × Contents) :=
  match t.storePlace? (.ofString path) with
  | none => .error (.connection (.cannotOpen path RowFault.unableToOpen.message))
  | some q =>
    match foundAt t q with
    | .directory => .error (.connection (.cannotOpen path RowFault.unableToOpen.message))
    | .junk => .error (.connection (.cannotUse path .notADatabase))
    | .nothing =>
      if t.isDirectory (.ofPlace q.dropLast) then (opened path false .blank).map (q, ·)
      else .error (.connection (.cannotOpen path RowFault.unableToOpen.message))
    | .contents d => (opened path false d).map (q, ·)

theorem place_of_writable {t : FileTree} {path : String} {q : Place} {d : Contents}
    (h : writable t path = .ok (q, d)) : q = t.namedPlace (.ofString path) ∧ q ≠ [] := by
  unfold writable at h
  cases hplace : t.storePlace? (.ofString path) with
  | none =>
    rw [hplace] at h
    cases h
  | some r =>
    rw [hplace] at h
    dsimp only at h
    have hmade {x : Except Failure Contents} (h : x.map (r, ·) = .ok (q, d)) : r = q := by
      cases x with
      | error e => cases h
      | ok d' => exact (Prod.mk.inj (Except.ok.inj h)).1
    have hroot : r ≠ [] := by
      rintro rfl
      unfold foundAt at h
      rw [FileTree.node?_root] at h
      cases h
    have hq : r = q := by
      split at h
      · cases h
      · cases h
      · split at h
        · exact hmade h
        · cases h
      · exact hmade h
    exact ⟨hq ▸ (FileTree.namedPlace_of_storePlace? hplace).symm, hq ▸ hroot⟩

theorem connect_writable {path : String} (hnul : path.toList.contains (Char.ofNat 0) = false)
    (hfile : ¬(path = memoryPath ∨ path = "")) (w : Workspace) :
    connect path false w =
      match w.files.makeDirectories (Path.ofString path).parent with
      | .error e => (.error (.connection (.cannotOpen path e.message)), w)
      | .ok t =>
        match writable t path with
        | .error e => (.error e, { w with files := t })
        | .ok (q, d) =>
          let mtime := ((t.node? q).map Node.mtime).getD 0
          (.ok w.connections.length, Workspace.add { w with files := t.put q (.store d mtime) }
            (fileConnection q path false d)) := by
  have hmemory : (path = memoryPath || path = "") = false := by simpa using hfile
  unfold connect
  simp only [hnul, Bool.false_eq_true, if_false, Bool.not_false, Bool.true_and, hmemory]
  rw [bind_apply]
  unfold findWritable
  rw [get_apply]
  cases w.files.makeDirectories (Path.ofString path).parent with
  | error e => rfl
  | ok t =>
    dsimp only
    have hmodify {α : Type} (f : WorkM α) (u : Workspace) :
        ((modify fun w => { w with files := t }) >>= fun _ => f) u = f { u with files := t } := rfl
    rw [hmodify]
    unfold writable
    cases t.storePlace? (.ofString path) with
    | none => rfl
    | some q =>
      dsimp only
      cases foundAt t q with
      | directory => rfl
      | junk => rfl
      | nothing =>
        dsimp only
        cases t.isDirectory (.ofPlace q.dropLast) with
        | false => rfl
        | true =>
          change (ensureSchema path false .blank >>= _) _ = _
          rw [bind_apply, ensureSchema_apply]
          cases opened path false .blank <;> rfl
      | contents d =>
        change (ensureSchema path false d >>= _) _ = _
        rw [bind_apply, ensureSchema_apply]
        dsimp only
        cases opened path false d <;> rfl

/-- Whether a path can be opened for writing does not depend on what another store holds. -/
theorem writable_alike {t t' : FileTree} {place : Option Place} (h : FileTree.Alike place t t')
    {path : String} (hplace : place ≠ some (t.namedPlace (.ofString path))) :
    writable t path = writable t' path := by
  unfold writable
  rw [← h.storePlace?]
  cases hstore : t.storePlace? (.ofString path) with
  | none => rfl
  | some q =>
    rw [FileTree.namedPlace_of_storePlace? hstore] at hplace
    have hfound : foundAt t q = foundAt t' q := by
      unfold foundAt
      rcases h.nodes q with heq | ⟨hp, -⟩
      · rw [heq]
      · exact absurd hp hplace
    dsimp only
    rw [hfound, h.isDirectory]

/-- Why a path cannot be opened for writing. -/
def writeFault (t : FileTree) (path : String) : Option Failure :=
  if path.toList.contains (Char.ofNat 0) then some .nulInPath
  else if path = memoryPath ∨ path = "" then none
  else match t.makeDirectories (Path.ofString path).parent with
    | .error e => some (.connection (.cannotOpen path e.message))
    | .ok t =>
      match writable t path with
      | .error e => some e
      | .ok _ => none

theorem writeFault_alike {t t' : FileTree} {place : Option Place} (h : FileTree.Alike place t t')
    {path : String} (hplace : place ≠ some (t.namedPlace (.ofString path))) :
    writeFault t path = writeFault t' path := by
  unfold writeFault
  split
  · rfl
  · split
    · rfl
    · rcases h.makeDirectories (Path.ofString path).parent with ⟨e, he, he'⟩ | ⟨u, u', hu, hu', halike⟩
      · rw [he, he']
      · have hgrows : t.Grows u := FileTree.makeDirectoriesFrom_grows _ _ hu
        rw [hu, hu']
        dsimp only
        rw [writable_alike halike (hgrows.namedPlace (.ofString path) ▸ hplace)]

/-- A path is opened for writing beside a connection, or it is refused; the connection holds what it
held. -/
theorem connect_ends {id : Nat} {path output : String} {place : Option Place} {c : Contents}
    (h : w.Holds id path place c) (hplace : place ≠ some (w.files.namedPlace (.ofString output))) :
    (∃ e u, writeFault w.files output = some e ∧ connect output false w = (.error e, u) ∧
        u.Holds id path place c) ∨
      ∃ q d u, writeFault w.files output = none ∧ connect output false w = (.ok w.connections.length, u) ∧
        u.Holds id path place c ∧ u.Holds w.connections.length output q d ∧
        u.connections.length = w.connections.length + 1 ∧ ∀ p, place = some p → q ≠ some p := by
  unfold writeFault
  by_cases hnul : output.toList.contains (Char.ofNat 0) = true
  · refine .inl ⟨.nulInPath, w, by rw [if_pos hnul], ?_, h⟩
    unfold connect
    simp only [hnul, if_true]
    rfl
  · rw [if_neg hnul]
    by_cases hmemory : output = memoryPath ∨ output = ""
    · rw [if_pos hmemory]
      refine .inr ⟨none, .empty, w.add (memoryConnection output), rfl, connect_memory hmemory, h.add _, ?_,
        by simp [Workspace.add], fun _ _ => by simp⟩
      exact h.added ⟨rfl, rfl, rfl, rfl, rfl, rfl⟩ (fun _ => rfl) fun _ hp => by cases hp
    · rw [if_neg hmemory, connect_writable (by simpa using hnul) hmemory]
      cases hdirs : w.files.makeDirectories (Path.ofString output).parent with
      | error e => exact .inl ⟨_, w, rfl, rfl, h⟩
      | ok t =>
        have hgrows : w.files.Grows t := FileTree.makeDirectoriesFrom_grows _ _ hdirs
        have hfile (p : Place) (hp : place = some p) : ∃ mtime, t.node? p = some (.store c mtime) := by
          obtain ⟨mtime, hnode⟩ := h.file p hp
          exact ⟨mtime, hgrows.nodes p _ hnode⟩
        dsimp only
        cases hwritable : writable t output with
        | error e => exact .inl ⟨e, _, rfl, rfl, { h with file := hfile }⟩
        | ok made =>
          obtain ⟨q, d⟩ := made
          obtain ⟨hq, hroot⟩ := place_of_writable hwritable
          rw [← hgrows.namedPlace, ← hq] at hplace
          have hbase (n : Node) : Workspace.Holds { w with files := t.put q n } id path place c :=
            { h with
              file := fun p hp => by
                obtain ⟨mtime, hnode⟩ := hfile p hp
                have hne : p ≠ q := fun heq => hplace (heq ▸ hp)
                exact ⟨mtime, (FileTree.node?_put_of_ne hne _).trans hnode⟩ }
          refine .inr ⟨some q, d, _, rfl, rfl, (hbase _).add _,
            (hbase _).added ⟨rfl, rfl, rfl, rfl, rfl, rfl⟩ (fun hq => by cases hq) fun p hp => ?_, ?_,
            fun p hp heq => hplace (hp.trans heq.symm)⟩
          · obtain rfl := Option.some.inj hp
            exact ⟨_, FileTree.node?_put_self hroot _⟩
          · simp [Workspace.add]

end WorkM

end Crossref
