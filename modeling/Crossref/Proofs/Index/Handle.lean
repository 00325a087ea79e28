/-
An index in use, over any sequence of calls. The cursors of the store that is attached
are those of the present generation: setting up and releasing begin a new one, and no
other call changes the generation of anything. A cursor of an earlier generation stays
as it is until it is closed. An update gives the index back as it took it, however the
update ends.
-/
import Crossref.Proofs.Index.Uses

namespace Crossref

namespace IndexM

variable {α β : Type}

theorem bind_apply (op : IndexM α) (f : α → IndexM β) (s : Index × Workspace) :
    (op >>= f) s =
      match op s with
      | (.ok a, s) => f a s
      | (.error e, s) => (.error e, s) := by
  change (ExceptT.bind op f : ExceptT Failure (StateM (Index × Workspace)) β) s = _
  unfold ExceptT.bind ExceptT.mk ExceptT.bindCont
  simp only [bind, StateT.bind]
  rcases op s with ⟨_ | _, _⟩ <;> rfl

/-- What is done to the index at the end is done whether the operation succeeds or fails. -/
theorem tryFinally_apply (op : IndexM α) (change : Index → Index) (s : Index × Workspace) :
    tryFinally op (Index.modifyIndex change) s = ((op s).1, (change (op s).2.1, (op s).2.2)) := by
  unfold tryFinally
  simp only [Functor.map, ExceptT.map, ExceptT.mk, tryFinally', bind, StateT.bind]
  rcases op s with ⟨_ | _, _⟩ <;> rfl

end IndexM

namespace Index

variable {x : Index} {w : Workspace} {request : UpdateRequest}

/-- An index that was not being updated is as before when its update is over, but for the report. -/
theorem afterUpdate_duringUpdate (h : x.updating = false) (lastReport : Option LifecycleReport) :
    ({ x.duringUpdate with lastReport } : Index).afterUpdate = { x with lastReport } := by
  unfold duringUpdate afterUpdate
  rw [← h]

theorem update_refuses {e : Failure} (h : x.admitUpdate = .error e) :
    update request (x, w) = (.error e, (x, w)) := by
  have hrefuses : onWork (WorkM.ofExcept x.admitUpdate) (x, w) = (.error e, (x, w)) := by
    rw [h]
    rfl
  have hget : (get : IndexM (Index × Workspace)) (x, w) = (.ok (x, w), (x, w)) := rfl
  unfold update
  rw [IndexM.bind_apply, hget]
  dsimp only
  rw [IndexM.bind_apply, hrefuses]

/-- An update sets the flag, runs, and takes the flag back, however it ends. -/
theorem update_apply {id : Nat} (h : x.admitUpdate = .ok id) :
    update request (x, w) =
      match Lifecycle.run id x.threshold request w with
      | (.ok result, w') =>
        (.ok result, ({ x.duringUpdate with lastReport := some result.report : Index }.afterUpdate, w'))
      | (.error e, w') => (.error e, (x.duringUpdate.afterUpdate, w')) := by
  have hadmits : onWork (WorkM.ofExcept x.admitUpdate) (x, w) = (.ok id, (x, w)) := by
    rw [h]
    rfl
  have hget : (get : IndexM (Index × Workspace)) (x, w) = (.ok (x, w), (x, w)) := rfl
  have hflag : modifyIndex duringUpdate (x, w) = (.ok ⟨⟩, (x.duringUpdate, w)) := rfl
  have hrun : onWork (Lifecycle.run id x.threshold request) (x.duringUpdate, w) =
      ((Lifecycle.run id x.threshold request w).1,
        (x.duringUpdate, (Lifecycle.run id x.threshold request w).2)) := rfl
  unfold update
  rw [IndexM.bind_apply, hget]
  dsimp only
  rw [IndexM.bind_apply, hadmits]
  dsimp only
  rw [IndexM.bind_apply, hflag]
  dsimp only
  rw [IndexM.tryFinally_apply, IndexM.bind_apply, hrun]
  rcases Lifecycle.run id x.threshold request w with ⟨_ | _, _⟩ <;> rfl

/-- The cursor counts as open: someone has it, its generation is the present one, and it is not closed. -/
def isOpen (x : Index) (c : HeldCursor) : Bool :=
  c.held && c.generation = x.generation && !c.cursor.closed

/-! ## What the index keeps track of -/

/-- The index keeps track of the open cursors of its generation, once each. -/
structure Tracks (x : Index) : Prop where
  distinct : x.tracked.Nodup
  mem_iff : ∀ n, n ∈ x.tracked ↔ ∃ c, x.cursors[n]? = some c ∧ x.isOpen c = true

theorem isOpen_iff {c : HeldCursor} :
    x.isOpen c = true ↔ c.held = true ∧ c.generation = x.generation ∧ c.cursor.closed = false := by
  unfold isOpen
  simp [and_assoc]

/-- What the index counts are the open cursors of its generation. -/
theorem Tracks.openCursors_eq (h : x.Tracks) :
    x.openCursors = (List.range x.cursors.length).countP fun n => x.cursors[n]?.any x.isOpen := by
  have hall : x.openCursors = x.tracked.length := by
    refine List.countP_eq_length.2 fun n hn => ?_
    obtain ⟨c, hc, hopen⟩ := (h.mem_iff n).1 hn
    rw [hc, Option.any_some, (isOpen_iff.1 hopen).2.2]
    rfl
  have hperm : x.tracked.Perm ((List.range x.cursors.length).filter fun n => x.cursors[n]?.any x.isOpen) := by
    refine (List.perm_ext_iff_of_nodup h.distinct (List.nodup_range.filter _)).2 fun n => ?_
    rw [h.mem_iff, List.mem_filter, List.mem_range, Option.any_eq_true]
    constructor
    · rintro ⟨c, hc, hopen⟩
      exact ⟨(List.getElem?_eq_some_iff.1 hc).1, c, hc, hopen⟩
    · rintro ⟨-, hopen⟩
      exact hopen
  rw [hall, hperm.length_eq, List.countP_eq_length_filter]

theorem Tracks.openCursors_pos (h : x.Tracks) :
    0 < x.openCursors ↔ ∃ (n : Nat) (c : HeldCursor), x.cursors[n]? = some c ∧ x.isOpen c = true := by
  unfold openCursors
  rw [List.countP_pos_iff]
  constructor
  · rintro ⟨n, hn, -⟩
    exact ⟨n, (h.mem_iff n).1 hn⟩
  · rintro ⟨n, c, hc, hopen⟩
    refine ⟨n, (h.mem_iff n).2 ⟨c, hc, hopen⟩, ?_⟩
    rw [hc, Option.any_some, (isOpen_iff.1 hopen).2.2]
    rfl

theorem Tracks.handOut (h : x.Tracks) {c : HeldCursor} (hheld : c.held = true)
    (hgeneration : c.generation = x.generation) : (x.handOut c).1.Tracks := by
  have hnew : x.cursors.length ∉ x.tracked := fun hmem => by
    obtain ⟨d, hd, -⟩ := (h.mem_iff _).1 hmem
    exact absurd (List.getElem?_eq_some_iff.1 hd).1 (Nat.lt_irrefl _)
  have hlater (n : Nat) : (∃ d, (x.cursors ++ [c])[n]? = some d ∧ x.isOpen d = true) ↔
      n ∈ x.tracked ∨ n = x.cursors.length ∧ c.cursor.closed = false := by
    rw [h.mem_iff]
    rcases Nat.lt_trichotomy n x.cursors.length with hlt | rfl | hgt
    · simp [List.getElem?_append_left hlt, Nat.ne_of_lt hlt]
    · simp [isOpen_iff, hheld, hgeneration]
    · have hlength : (x.cursors ++ [c]).length ≤ n := by rwa [List.length_append, List.length_singleton]
      simp [List.getElem?_eq_none (Nat.le_of_lt hgt), List.getElem?_eq_none hlength, Nat.ne_of_gt hgt]
  constructor
  · unfold Index.handOut
    dsimp only
    split
    · exact h.distinct
    · exact List.nodup_append.2 ⟨h.distinct, by simp, by rintro n hn m hm rfl; exact hnew (by simp_all)⟩
  · intro n
    refine Iff.trans ?_ (hlater n).symm
    unfold Index.handOut
    dsimp only
    cases c.cursor.closed <;> simp

/-- A cursor that is replaced stays with who has it and in its generation, and does not open again. -/
theorem Tracks.setCursor (h : x.Tracks) {n : Nat} {c c' : HeldCursor} (hc : x.cursors[n]? = some c)
    (hheld : c'.held = c.held) (hgeneration : c'.generation = c.generation)
    (hclosed : c.cursor.closed = true → c'.cursor.closed = true) : (x.setCursor n c').Tracks := by
  have hn : n < x.cursors.length := (List.getElem?_eq_some_iff.1 hc).1
  have hrest {m : Nat} (hm : m ≠ n) :
      m ∈ x.tracked ↔ ∃ d, (x.cursors.set n c')[m]? = some d ∧ x.isOpen d = true := by
    rw [List.getElem?_set_ne hm.symm]
    exact h.mem_iff m
  have hself : (∃ d, (x.cursors.set n c')[n]? = some d ∧ x.isOpen d = true) ↔
      n ∈ x.tracked ∧ c'.cursor.closed = false := by
    rw [List.getElem?_set_self hn, h.mem_iff, hc]
    simp only [Option.some.injEq, exists_eq_left', isOpen_iff, hheld, hgeneration]
    constructor
    · rintro ⟨hh, hg, hopen⟩
      refine ⟨⟨hh, hg, Bool.eq_false_iff.2 fun hcl => ?_⟩, hopen⟩
      rw [hclosed hcl] at hopen
      cases hopen
    · rintro ⟨⟨hh, hg, -⟩, hopen⟩
      exact ⟨hh, hg, hopen⟩
  unfold Index.setCursor
  dsimp only
  cases hcl : c'.cursor.closed with
  | true =>
    refine ⟨h.distinct.filter _, fun m => ?_⟩
    by_cases hm : m = n
    · subst hm
      refine iff_of_false (by simp [untrack]) fun hopen => ?_
      have := (hself.1 hopen).2
      rw [hcl] at this
      cases this
    · refine Iff.trans ?_ (hrest hm)
      simp [untrack, hm]
  | false =>
    refine ⟨h.distinct, fun m => ?_⟩
    by_cases hm : m = n
    · subst hm
      exact (hself.trans (and_iff_left hcl)).symm
    · exact hrest hm

@[simp]
theorem setCursor_cursors (x : Index) (n : Nat) (c : HeldCursor) : (x.setCursor n c).cursors = x.cursors.set n c := by
  unfold Index.setCursor
  dsimp only
  split <;> rfl

theorem Tracks.forget (h : x.Tracks) (n : Nat) : (x.forget n).Tracks := by
  refine ⟨h.distinct.filter _, fun m => ?_⟩
  have hmem : m ∈ (x.forget n).tracked ↔ m ∈ x.tracked ∧ m ≠ n := by simp [Index.forget, untrack]
  have hget : (x.forget n).cursors[m]? =
      x.cursors[m]?.map fun c => if n = m then { c with held := false } else c := by
    change (x.cursors.modify n fun c => { c with held := false })[m]? = _
    rw [List.getElem?_modify]
    cases x.cursors[m]? with
    | none => simp
    | some c => split <;> simp_all
  rw [hmem, hget, h.mem_iff]
  cases x.cursors[m]? with
  | none => simp
  | some c =>
    by_cases hm : m = n
    · simp [hm, isOpen_iff]
    · have hne : n ≠ m := Ne.symm hm
      simp [hm, hne, isOpen_iff, Index.forget, untrack]

end Index

/-- An index with the workspace that it works on. -/
structure Handle where
  index : Index
  /-- The connections from which rows are still to come are those of other indexes only. -/
  work : Workspace
  /-- How many cursors had been handed out when a store was last attached or released. -/
  earlier : Nat := 0

inductive Call where
  | setup (id : Nat)
  | release
  | update (request : UpdateRequest)
  | ask (question : Question)
  | look (number : Nat) (look : Look)
  /-- Nobody has the cursor any more. -/
  | forget (number : Nat)
  /-- Something else is done in the workspace. -/
  | elsewhere (work : Workspace)

namespace Handle

abbrev cursor? (h : Handle) (n : Nat) : Option HeldCursor :=
  h.index.cursors[n]?

theorem lt_of_cursor? {h : Handle} {n : Nat} {c : HeldCursor} (hc : h.cursor? n = some c) :
    n < h.index.cursors.length :=
  (List.getElem?_eq_some_iff.1 hc).1

/-! ## Calls -/

/-- The workspace as the operations of the index find it. -/
def ready (h : Handle) : Workspace :=
  { h.work with reading := h.work.reading ++ h.index.reading }

def onWork {α : Type} (h : Handle) (operation : WorkM α) : Except Failure α × Workspace :=
  let ended := operation h.ready
  (ended.1, { ended.2 with reading := h.work.reading })

/-- Runs an operation after which no store or another store is attached. -/
def attach (h : Handle) (operation : WorkM Index) : Except Failure Answer × Handle :=
  match h.onWork operation with
  | (.ok x, w) => (.ok .done, ⟨x, w, x.cursors.length⟩)
  | (.error e, w) => (.error e, { h with work := w })

/-- Runs an operation that answers with the index as it is afterwards. -/
def change (h : Handle) (operation : WorkM (Index × Answer)) : Except Failure Answer × Handle :=
  match h.onWork operation with
  | (.ok (x, a), w) => (.ok a, { h with index := x, work := w })
  | (.error e, w) => (.error e, { h with work := w })

/-- Runs an update, which may change the index also if it fails. -/
def update (h : Handle) (request : UpdateRequest) : Except Failure Answer × Handle :=
  let (outcome, x, w) := Index.update request (h.index, h.ready)
  (outcome.map .updated, { h with index := x, work := { w with reading := h.work.reading } })

/-- Connections stay in a workspace, also when they are closed; nothing takes one away. -/
def step (h : Handle) : Call → Except Failure Answer × Handle
  | .setup id =>
    match h.work.connection? id with
    | none => (.error (.connection (.closed memoryPath)), h)
    | some _ => h.attach (h.index.setup id)
  | .release => h.attach h.index.release
  | .update request => h.update request
  | .ask question => h.change (question.ask h.index)
  | .look n look =>
    match h.cursor? n with
    | none => (.error .exhausted, h)
    | some c =>
      let looked := look.run h.index h.work c
      (looked.1, { h with index := h.index.setCursor n looked.2 })
  | .forget n => (.ok .done, { h with index := h.index.forget n })
  | .elsewhere w =>
    (.ok .done, { h with work := if h.work.connections.length ≤ w.connections.length then w else h.work })

/-- The handle after some more calls. -/
def after (h : Handle) (calls : List Call) : Handle :=
  calls.foldl (fun h call => (h.step call).2) h

/-- A new index after some calls. -/
def run (threshold : Int) (work : Workspace) (calls : List Call) : Handle :=
  after ⟨{ threshold }, work, 0⟩ calls

/-! ## Invariant -/

/-- No update is running, the attached store is there, the index keeps track of the open cursors of its
generation, and the cursors from before the store was attached are those of earlier generations. -/
structure Sound (h : Handle) : Prop where
  idle : h.index.updating = false
  tracks : h.index.Tracks
  connection : ∀ id, h.index.connection = some id → id < h.work.connections.length
  apt : ∀ n c, h.cursor? n = some c → c.cursor.Apt
  earlier : h.earlier ≤ h.index.cursors.length
  /-- Without a store no cursor is handed out. -/
  detached : h.index.connection = none → h.earlier = h.index.cursors.length
  old : ∀ n c, h.cursor? n = some c → n < h.earlier → c.generation < h.index.generation
  present : ∀ n c, h.cursor? n = some c → h.earlier ≤ n → c.generation = h.index.generation

variable {h h' : Handle} {call : Call}

theorem Sound.fresh (threshold : Int) (work : Workspace) : Sound ⟨{ threshold }, work, 0⟩ where
  idle := rfl
  tracks := ⟨List.nodup_nil, fun _ => by simp⟩
  connection _ hid := nomatch hid
  apt _ _ hc := nomatch hc
  earlier := Nat.le_refl 0
  detached _ := rfl
  old _ _ hc := nomatch hc
  present _ _ hc := nomatch hc

/-- No cursor is of a generation that has not begun. -/
theorem Sound.generation_le (hs : h.Sound) {n : Nat} {c : HeldCursor} (hc : h.cursor? n = some c) :
    c.generation ≤ h.index.generation := by
  rcases Nat.lt_or_ge n h.earlier with hlt | hge
  · exact Nat.le_of_lt (hs.old n c hc hlt)
  · exact Nat.le_of_eq (hs.present n c hc hge)

end Handle

/-! ## What a call does -/

namespace Index

/-- The index after its store is released. -/
def released (x : Index) : Index :=
  match x.connection with
  | none => x
  | some _ => { x with connection := none, generation := x.generation + 1, tracked := [] }

variable {x : Index} {w : Workspace}

theorem released_cursors (x : Index) : x.released.cursors = x.cursors := by
  unfold released
  split <;> rfl

theorem released_updating (x : Index) : x.released.updating = x.updating := by
  unfold released
  split <;> rfl

theorem released_connection (x : Index) : x.released.connection = none := by
  unfold released
  split
  next hnone => exact hnone
  next => rfl

theorem release_apply (h : ∀ id, x.connection = some id → id < w.connections.length) :
    ∃ w', x.release w = (.ok x.released, w') ∧ w'.connections.length = w.connections.length := by
  unfold release released
  cases hconnection : x.connection with
  | none => exact ⟨w, rfl, rfl⟩
  | some id =>
    have hlt : id < w.connections.length := h id hconnection
    have hk : w.connection? id = some w.connections[id] := List.getElem?_eq_getElem hlt
    refine ⟨w.setConnection id { w.connections[id] with isOpen := false }, ?_, List.length_set⟩
    change (WorkM.close id >>= _) w = _
    rw [WorkM.bind_apply, WorkM.close_apply hk]
    rfl

theorem setup_apply (h : ∀ id, x.connection = some id → id < w.connections.length) (id : Nat) :
    ∃ w', x.setup id w = (.ok { x.released with connection := some id }, w') ∧
      w'.connections.length = w.connections.length := by
  obtain ⟨w', hrelease, hlength⟩ := release_apply h
  refine ⟨w', ?_, hlength⟩
  unfold setup
  rw [WorkM.bind_apply, hrelease]
  rfl

end Index

/-- The calls that end the use of a store, or begin that of one that is there. -/
def Call.Ends (h : Handle) : Call → Prop
  | .release => True
  | .setup id => id < h.work.connections.length
  | _ => False

namespace Handle

variable {h h' : Handle} {call : Call}

/-- What a call that does not end the use of a store makes of the index, the report apart: only the
cursors change, and which of them the index keeps track of. -/
inductive Turns (h : Handle) : Call → Index → Prop
  | same (call : Call) : Turns h call h.index
  | opened (question : Question) {c : HeldCursor} (attached : h.index.connection.isSome = true)
      (apt : c.cursor.Apt) (generation : c.generation = h.index.generation) (held : c.held = true) :
      Turns h (.ask question) (h.index.handOut c).1
  | looked {n : Nat} {c : HeldCursor} (look : Look) (there : h.cursor? n = some c) :
      Turns h (.look n look) (h.index.setCursor n (look.run h.index h.work c).2)
  | forgot (n : Nat) : Turns h (.forget n) (h.index.forget n)

/-- The handle after a call: the use of a store ended or began, or the index has the same store and
generation as before. -/
inductive Next (h : Handle) : Call → Handle → Prop
  | ended {call : Call} {connection : Option Nat} {w : Workspace}
      (there : ∀ id, connection = some id → id < w.connections.length) :
      Next h call ⟨{ h.index.released with connection }, w, h.index.cursors.length⟩
  | kept {call : Call} {x : Index} {lastReport : Option LifecycleReport} {w : Workspace}
      (turns : h.Turns call x) (grows : h.work.connections.length ≤ w.connections.length) :
      Next h call ⟨{ x with lastReport }, w, h.earlier⟩

theorem Next.still {w : Workspace} (hgrows : h.work.connections.length ≤ w.connections.length) :
    Next h call { h with work := w } :=
  .kept (.same call) hgrows

/-- An operation that spares all connections of a workspace spares those of the handle. -/
theorem onWork_spares {α : Type} {operation : WorkM α}
    (hspares : WorkM.Spares h.work.connections.length operation) :
    h.work.Spares h.work.connections.length (h.onWork operation).2 := by
  have hready : h.ready.Spares h.work.connections.length (operation h.ready).2 :=
    hspares.keeps (Nat.le_refl h.work.connections.length)
  exact ⟨hready.grows, hready.opens⟩

theorem onWork_fails {α : Type} {operation : WorkM α} {e : Failure}
    (hspares : WorkM.Spares h.work.connections.length operation)
    (he : (h.onWork operation).1 = .error e) : e.ofIndex = false :=
  hspares.fails (w := h.ready) (Nat.le_refl h.work.connections.length) e he

theorem attach_release (hs : h.Sound) :
    ∃ w, h.attach h.index.release = (.ok .done, ⟨h.index.released, w, h.index.cursors.length⟩) := by
  obtain ⟨w, hrelease, -⟩ := Index.release_apply (w := h.ready) hs.connection
  unfold attach onWork
  simp only [hrelease, Index.released_cursors]
  exact ⟨_, rfl⟩

theorem attach_setup (hs : h.Sound) {id : Nat} (hid : id < h.work.connections.length) :
    ∃ w, id < w.connections.length ∧ h.attach (h.index.setup id) =
      (.ok .done, ⟨{ h.index.released with connection := some id }, w, h.index.cursors.length⟩) := by
  obtain ⟨w, hsetup, hlength⟩ := Index.setup_apply (w := h.ready) hs.connection id
  refine ⟨{ w with reading := h.work.reading }, ?_, ?_⟩
  · rw [hlength]
    exact hid
  · unfold attach onWork
    simp only [hsetup, Index.released_cursors]

/-- An update that may not begin changes nothing; one that runs changes no more of the index than the
report, and spares all connections. -/
theorem update_cases (hs : h.Sound) (request : UpdateRequest) :
    (∃ e, h.index.admitUpdate = .error e ∧ h.update request = (.error e, h)) ∨
      (∃ id outcome lastReport w, h.index.admitUpdate = .ok id ∧
        h.update request = (outcome, { h with index := { h.index with lastReport }, work := w }) ∧
        h.work.Spares h.work.connections.length w ∧ ∀ e, outcome = .error e → e.ofIndex = false) := by
  unfold update
  cases hadmitted : h.index.admitUpdate with
  | error e =>
    rw [Index.update_refuses hadmitted]
    exact .inl ⟨e, rfl, rfl⟩
  | ok id =>
    have hrun := Lifecycle.run_spares (n := h.work.connections.length) id h.index.threshold request
    have hspares := onWork_spares hrun
    have hfails (e : Failure) := onWork_fails (e := e) hrun
    rw [Index.update_apply hadmitted]
    unfold onWork at hspares hfails
    rcases hr : Lifecycle.run id h.index.threshold request h.ready with ⟨e | result, w⟩ <;>
      rw [hr] at hspares hfails
    · have hindex := Index.afterUpdate_duringUpdate hs.idle h.index.lastReport
      refine .inr ⟨id, .error e, h.index.lastReport, _, rfl, ?_, hspares, fun _ he =>
        Except.error.inj he ▸ hfails e rfl⟩
      rw [← hindex]
      rfl
    · have hindex := Index.afterUpdate_duringUpdate hs.idle (some result.report)
      refine .inr ⟨id, .ok (.updated result), some result.report, _, rfl, ?_, hspares, nofun⟩
      rw [← hindex]
      rfl

/-- A question that is not admitted changes nothing; one that is admitted hands out at most one
cursor, and spares all connections. -/
theorem change_cases (h : Handle) (q : Question) :
    (∃ e, h.index.admitQuestion = .error e ∧ h.change (q.ask h.index) = (.error e, h)) ∨
      (∃ id outcome x w, h.index.admitQuestion = .ok id ∧
        h.change (q.ask h.index) = (outcome, { h with index := x, work := w }) ∧
        h.Turns (.ask q) x ∧ h.work.Spares h.work.connections.length w ∧
        ∀ e, outcome = .error e → e.ofIndex = false) := by
  unfold change
  cases hadmitted : h.index.admitQuestion with
  | error e =>
    have hrefuses : q.ask h.index h.ready = (.error e, h.ready) := Question.ask_refuses hadmitted q h.ready
    refine .inl ⟨e, rfl, ?_⟩
    unfold onWork
    simp only [hrefuses]
    rfl
  | ok id =>
    have hask := Question.ask_spares (n := h.work.connections.length) hadmitted q
    have hspares := onWork_spares hask
    have hconnection : h.index.connection.isSome = true := Index.connection_isSome hadmitted
    rcases hr : h.onWork (q.ask h.index) with ⟨e | ⟨x, a⟩, w⟩ <;> rw [hr] at hspares
    · have hfails : e.ofIndex = false := onWork_fails hask (by rw [hr])
      exact .inr ⟨id, .error e, h.index, w, rfl, rfl, .same _, hspares, fun _ he =>
        Except.error.inj he ▸ hfails⟩
    · have hleaves : Question.Leaves h.index x :=
        Question.ask_leaves q h.ready (x, a) (congrArg Prod.fst hr)
      rcases hleaves with rfl | ⟨c, hapt, hgeneration, hheld, rfl⟩
      · exact .inr ⟨id, .ok a, h.index, w, rfl, rfl, .same _, hspares, nofun⟩
      · exact .inr ⟨id, .ok a, (h.index.handOut c).1, w, rfl, rfl,
          .opened q hconnection hapt hgeneration hheld, hspares, nofun⟩

theorem step_update (h : Handle) (request : UpdateRequest) : h.step (.update request) = h.update request :=
  rfl

theorem step_ask (h : Handle) (q : Question) : h.step (.ask q) = h.change (q.ask h.index) :=
  rfl

theorem step_setup {id : Nat} (hid : id < h.work.connections.length) :
    h.step (.setup id) = h.attach (h.index.setup id) := by
  have hk : h.work.connection? id = some h.work.connections[id] := List.getElem?_eq_getElem hid
  simp only [step, hk]

theorem step_look {n : Nat} {c : HeldCursor} (hc : h.cursor? n = some c) (look : Look) :
    h.step (.look n look) = ((look.run h.index h.work c).1,
      { h with index := h.index.setCursor n (look.run h.index h.work c).2 }) := by
  simp only [step, hc]

/-- Setting up and releasing succeed, and leave the cursors as they are. -/
theorem step_ends (hs : h.Sound) (hends : call.Ends h) :
    ∃ connection w, (∀ id, connection = some id → id < w.connections.length) ∧ h.step call =
      (.ok .done, ⟨{ h.index.released with connection }, w, h.index.cursors.length⟩) := by
  cases call with
  | setup id =>
    obtain ⟨w, hw, hattach⟩ := attach_setup hs hends
    exact ⟨some id, w, fun id' hid' => Option.some.inj hid' ▸ hw, (step_setup hends).trans hattach⟩
  | release =>
    obtain ⟨w, hattach⟩ := attach_release hs
    refine ⟨none, w, nofun, ?_⟩
    rw [← Index.released_connection h.index]
    exact hattach
  | _ => exact hends.elim

theorem step_next (hs : h.Sound) (call : Call) : h.Next call (h.step call).2 := by
  have hends (hends : call.Ends h) : h.Next call (h.step call).2 := by
    obtain ⟨connection, w, hthere, hstep⟩ := step_ends hs hends
    rw [hstep]
    exact .ended hthere
  cases call with
  | setup id =>
    by_cases hid : id < h.work.connections.length
    · exact hends hid
    · have hk : h.work.connection? id = none := List.getElem?_eq_none (Nat.not_lt.1 hid)
      simp only [step, hk]
      exact .still (Nat.le_refl _)
  | release => exact hends True.intro
  | update request =>
    rw [step_update]
    rcases update_cases hs request with ⟨e, -, hupdate⟩ | ⟨_, _, _, _, -, hupdate, hspares, -⟩
    · rw [hupdate]
      exact .still (Nat.le_refl _)
    · rw [hupdate]
      exact .kept (.same _) hspares.grows
  | ask q =>
    rw [step_ask]
    rcases change_cases h q with ⟨e, -, hchange⟩ | ⟨_, _, _, _, -, hchange, hturns, hspares, -⟩
    · rw [hchange]
      exact .still (Nat.le_refl _)
    · rw [hchange]
      exact .kept hturns hspares.grows
  | look n look =>
    cases hc : h.cursor? n with
    | none =>
      simp only [step, hc]
      exact .still (Nat.le_refl _)
    | some c =>
      rw [step_look hc]
      exact .kept (.looked look hc) (Nat.le_refl _)
  | forget n => exact .kept (.forgot n) (Nat.le_refl _)
  | elsewhere w =>
    refine .still ?_
    split
    next hle => exact hle
    next => exact Nat.le_refl _

/-! ## The invariant is kept -/

/-- A cursor stays in its place, of its generation; only looking at it changes it. -/
theorem Turns.stays {x : Index} (ht : h.Turns call x) {n : Nat} {c : HeldCursor} (hc : h.cursor? n = some c) :
    ∃ c', x.cursors[n]? = some c' ∧ c'.generation = c.generation ∧ (c'.cursor = c.cursor ∨
      ∃ look, call = .look n look ∧ c'.cursor = (look.run h.index h.work c).2.cursor) := by
  have hn : n < h.index.cursors.length := lt_of_cursor? hc
  cases ht with
  | same => exact ⟨c, hc, rfl, .inl rfl⟩
  | opened => exact ⟨c, (List.getElem?_append_left hn).trans hc, rfl, .inl rfl⟩
  | @looked m d look hd =>
    rw [Index.setCursor_cursors]
    by_cases hm : m = n
    · subst hm
      obtain rfl : d = c := Option.some.inj (hd.symm.trans hc)
      exact ⟨_, List.getElem?_set_self hn, look.run_generation, .inr ⟨look, rfl, rfl⟩⟩
    · exact ⟨c, (List.getElem?_set_ne hm).trans hc, rfl, .inl rfl⟩
  | forgot m =>
    have hmodify : (h.index.forget m).cursors[n]? =
        some (if m = n then { c with held := false } else c) := by
      have hget : h.index.cursors[n]? = some c := hc
      unfold Index.forget Index.untrack
      rw [List.getElem?_modify, hget]
      split <;> rfl
    refine ⟨_, hmodify, ?_, .inl ?_⟩
    · split <;> rfl
    · split <;> rfl

/-- A cursor that is there after a call was there before, or it was handed out by the call. -/
theorem Turns.cases {x : Index} (ht : h.Turns call x) {n : Nat} {c' : HeldCursor} (hc' : x.cursors[n]? = some c') :
    (∃ c, h.cursor? n = some c ∧ c'.generation = c.generation ∧ (c.cursor.Apt → c'.cursor.Apt)) ∨
      (h.index.cursors.length ≤ n ∧ c'.generation = h.index.generation ∧ c'.cursor.Apt) := by
  rcases Nat.lt_or_ge n h.index.cursors.length with hlt | hge
  · have hc : h.cursor? n = some h.index.cursors[n] := List.getElem?_eq_getElem hlt
    obtain ⟨d, hd, hgeneration, hcursor⟩ := ht.stays hc
    obtain rfl : d = c' := Option.some.inj (hd.symm.trans hc')
    refine .inl ⟨_, hc, hgeneration, fun hapt => ?_⟩
    rcases hcursor with hsame | ⟨look, -, hlooked⟩
    · exact hsame ▸ hapt
    · exact hlooked ▸ Look.run_apt hapt look
  · obtain ⟨hn, -⟩ := List.getElem?_eq_some_iff.1 hc'
    cases ht with
    | opened q _ hapt hgeneration =>
      rw [Index.handOut, List.getElem?_append_right hge] at hc'
      obtain rfl := List.mem_singleton.1 (List.mem_of_getElem? hc')
      exact .inr ⟨hge, hgeneration, hapt⟩
    | same => exact absurd hn (Nat.not_lt.2 hge)
    | looked => exact absurd hn (by rw [Index.setCursor_cursors, List.length_set]; exact Nat.not_lt.2 hge)
    | forgot =>
      exact absurd hn (by rw [Index.forget, Index.untrack, List.length_modify]; exact Nat.not_lt.2 hge)

theorem Turns.length {x : Index} (ht : h.Turns call x) :
    h.index.cursors.length ≤ x.cursors.length ∧
      (h.index.connection = none → x.cursors.length = h.index.cursors.length) := by
  cases ht with
  | same => exact ⟨Nat.le_refl _, fun _ => rfl⟩
  | opened q hattached =>
    refine ⟨by simp [Index.handOut], fun hnone => ?_⟩
    rw [hnone] at hattached
    cases hattached
  | looked => simp
  | forgot => simp [Index.forget, Index.untrack]

/-- The store, the generation and the flag stay. -/
theorem Turns.rest {x : Index} (ht : h.Turns call x) :
    x.connection = h.index.connection ∧ x.generation = h.index.generation ∧ x.updating = h.index.updating := by
  cases ht with
  | same | opened | forgot => exact ⟨rfl, rfl, rfl⟩
  | looked =>
    unfold Index.setCursor
    dsimp only
    split <;> exact ⟨rfl, rfl, rfl⟩

theorem Turns.tracks {x : Index} (hs : h.Sound) (ht : h.Turns call x) : x.Tracks := by
  cases ht with
  | same => exact hs.tracks
  | opened _ _ _ hgeneration hheld => exact hs.tracks.handOut hheld hgeneration
  | @looked n c look hc =>
    refine hs.tracks.setCursor hc look.run_held look.run_generation fun hclosed => ?_
    rw [(Look.run_closed (hs.apt n c hc) hclosed look).1]
    exact hclosed
  | forgot n => exact hs.tracks.forget n

/-- When the use of a store ends, all cursors are of earlier generations. -/
theorem Sound.generation_lt_released (hs : h.Sound) {n : Nat} {c : HeldCursor} (hc : h.cursor? n = some c) :
    c.generation < h.index.released.generation := by
  unfold Index.released
  split
  next hnone =>
    have hlt : n < h.earlier := hs.detached hnone ▸ lt_of_cursor? hc
    exact hs.old n c hc hlt
  next => exact Nat.lt_succ_of_le (hs.generation_le hc)

/-- When the use of a store ends, the index keeps track of no cursor any more. -/
theorem Sound.released_tracked (hs : h.Sound) : h.index.released.tracked = [] := by
  unfold Index.released
  split
  next hnone =>
    refine List.eq_nil_iff_forall_not_mem.2 fun n hn => ?_
    obtain ⟨c, hc, hopen⟩ := (hs.tracks.mem_iff n).1 hn
    have hlt : n < h.earlier := hs.detached hnone ▸ lt_of_cursor? hc
    exact absurd (Index.isOpen_iff.1 hopen).2.1 (Nat.ne_of_lt (hs.old n c hc hlt))
  next => rfl

theorem Sound.next (hs : h.Sound) (hnext : h.Next call h') : h'.Sound := by
  cases hnext with
  | ended hthere =>
    have hcursor {n : Nat} {c : HeldCursor} (hc : h.index.released.cursors[n]? = some c) :
        h.cursor? n = some c := by rwa [Index.released_cursors] at hc
    have hlength : h.index.cursors.length = h.index.released.cursors.length := by
      rw [Index.released_cursors]
    exact {
      idle := h.index.released_updating.trans hs.idle
      tracks := by
        refine ⟨by simp [hs.released_tracked], fun n => iff_of_false (by simp [hs.released_tracked]) ?_⟩
        rintro ⟨c, hc, hopen⟩
        exact absurd (Index.isOpen_iff.1 hopen).2.1 (Nat.ne_of_lt (hs.generation_lt_released (hcursor hc)))
      connection := hthere
      apt := fun n c hc => hs.apt n c (hcursor hc)
      earlier := Nat.le_of_eq hlength
      detached := fun _ => hlength
      old := fun n c hc _ => hs.generation_lt_released (hcursor hc)
      present := fun n c hc hle => by
        exact absurd (lt_of_cursor? (hcursor hc)) (Nat.not_lt.2 hle) }
  | kept hturns hgrows =>
    obtain ⟨hlength, hdetached⟩ := hturns.length
    obtain ⟨hconnection, hsame, hupdating⟩ := hturns.rest
    exact {
      idle := hupdating.trans hs.idle
      tracks := ⟨(hturns.tracks hs).distinct, (hturns.tracks hs).mem_iff⟩
      connection := fun id hid => Nat.lt_of_lt_of_le (hs.connection id (hconnection ▸ hid)) hgrows
      apt := fun n c' hc' => by
        rcases hturns.cases hc' with ⟨c, hc, -, hapt⟩ | ⟨-, -, hapt⟩
        · exact hapt (hs.apt n c hc)
        · exact hapt
      earlier := Nat.le_trans hs.earlier hlength
      detached := fun hnone => by
        have hnone : h.index.connection = none := hconnection ▸ hnone
        exact (hs.detached hnone).trans (hdetached hnone).symm
      old := fun n c' hc' hlt => by
        rcases hturns.cases hc' with ⟨c, hc, hgeneration, -⟩ | ⟨hge, -⟩
        · rw [hgeneration, hsame]
          exact hs.old n c hc hlt
        · exact absurd (Nat.lt_of_lt_of_le hlt hs.earlier) (Nat.not_lt.2 hge)
      present := fun n c' hc' hle => by
        rcases hturns.cases hc' with ⟨c, hc, hgeneration, -⟩ | ⟨-, hgeneration, -⟩
        · rw [hgeneration, hsame]
          exact hs.present n c hc hle
        · rw [hgeneration, hsame] }

theorem Sound.step (hs : h.Sound) (call : Call) : (h.step call).2.Sound :=
  hs.next (step_next hs call)

theorem Sound.after (hs : h.Sound) (calls : List Call) : (h.after calls).Sound := by
  induction calls generalizing h with
  | nil => exact hs
  | cons call calls ih => exact ih (hs.step call)

theorem run_sound (threshold : Int) (work : Workspace) (calls : List Call) :
    (run threshold work calls).Sound :=
  (Sound.fresh threshold work).after calls

end Handle

end Crossref
