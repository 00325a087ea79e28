/-
What an index promises to whoever uses it, over any sequence of calls. An update is
refused exactly while a cursor of the attached store has rows left and someone has it;
no update leaves anything behind by which later calls are refused; and a cursor whose
store was released is stale from then on, shows no row and hinders nothing.
-/
import Crossref.Proofs.Index.Handle

namespace Crossref

namespace Cursor

variable {ρ α : Type}

theorem closed_close (c : Cursor ρ α) : c.close.closed = true := by
  unfold close
  split
  next hclosed => exact hclosed
  next => rfl

theorem close_close (c : Cursor ρ α) : c.close.close = c.close := by
  have hclosed : c.close.closed = true := c.closed_close
  generalize c.close = k at hclosed
  unfold close
  rw [if_pos hclosed]

end Cursor

theorem Index.admitLook_past {x : Index} {c : HeldCursor} (h : c.generation < x.generation) :
    x.admitLook c = .error (.stale .cursor) := by
  unfold admitLook
  rw [decide_eq_false (Nat.ne_of_lt h)]
  rfl

namespace Handle

variable {h h' : Handle} {call : Call} {n : Nat} {k : FindingCursor}

/-! ## Stale cursors -/

/-- The cursor was handed out before the present generation began, and is as given. -/
def Past (h : Handle) (n : Nat) (k : FindingCursor) : Prop :=
  ∃ c, h.cursor? n = some c ∧ c.cursor = k ∧ c.generation < h.index.generation

/-- A look at a stale cursor fails, and leaves the cursor as it is. -/
theorem Past.stale (hp : h.Past n k) (hopen : k.closed = false) {look : Look} (hne : look ≠ .close) :
    h.step (.look n look) = (.error (.stale .cursor), h) := by
  obtain ⟨c, hc, rfl, hlt⟩ := hp
  obtain ⟨hn, hget⟩ := List.getElem?_eq_some_iff.1 hc
  have hset : h.index.cursors.set n c = h.index.cursors := by
    rw [← hget, List.set_getElem_self]
  rw [step_look hc, Look.run_refused hopen (Index.admitLook_past hlt) hne, Index.setCursor]
  simp only [hopen, hset, Bool.false_eq_true, if_false]

/-- A stale cursor stays stale, and is closed only when someone closes it. -/
theorem Past.next (hs : h.Sound) (hp : h.Past n k) (hnext : h.Next call h') :
    h'.Past n k ∨ call = .look n .close ∧ h'.Past n k.close := by
  obtain ⟨c, hc, rfl, hlt⟩ := hp
  cases hnext with
  | ended hthere =>
    have hc' : h.index.released.cursors[n]? = some c := by rwa [Index.released_cursors]
    exact .inl ⟨c, hc', rfl, hs.generation_lt_released hc⟩
  | kept hturns hgrows =>
    obtain ⟨c', hc', hgeneration, hcursor⟩ := hturns.stays hc
    have hlt' : c'.generation < _ := hgeneration ▸ hturns.rest.2.1 ▸ hlt
    rcases hcursor with hsame | ⟨look, rfl, hlooked⟩
    · exact .inl ⟨c', hc', hsame, hlt'⟩
    · by_cases hclose : look = .close
      · subst hclose
        exact .inr ⟨rfl, c', hc', hlooked, hlt'⟩
      · have hsame : (look.run h.index h.work c).2.cursor = c.cursor := by
          cases hclosed : c.cursor.closed with
          | true => rw [(Look.run_closed (hs.apt n c hc) hclosed look).1]
          | false => rw [Look.run_refused hclosed (Index.admitLook_past hlt) hclose]
        exact .inl ⟨c', hc', hlooked.trans hsame, hlt'⟩

theorem Past.after (hs : h.Sound) (hp : h.Past n k) (calls : List Call) :
    (h.after calls).Past n k ∨ .look n .close ∈ calls ∧ (h.after calls).Past n k.close := by
  induction calls generalizing h k with
  | nil => exact .inl hp
  | cons call calls ih =>
    have hs' : (h.step call).2.Sound := hs.step call
    rcases hp.next hs (step_next hs call) with hp' | ⟨rfl, hp'⟩
    · exact (ih hs' hp').imp id fun ⟨hmem, hlast⟩ => ⟨List.mem_cons_of_mem _ hmem, hlast⟩
    · rcases ih hs' hp' with hlast | ⟨-, hlast⟩
      · exact .inr ⟨List.mem_cons_self, hlast⟩
      · rw [Cursor.close_close] at hlast
        exact .inr ⟨List.mem_cons_self, hlast⟩

/-- When the use of a store ends, its cursors become stale as they are. -/
theorem past_of_ends (hs : h.Sound) (hends : call.Ends h) {c : HeldCursor} (hc : h.cursor? n = some c) :
    (h.step call).2.Past n c.cursor := by
  obtain ⟨connection, w, -, hstep⟩ := step_ends hs hends
  rw [hstep]
  have hc' : h.index.released.cursors[n]? = some c := by rwa [Index.released_cursors]
  exact ⟨c, hc', rfl, hs.generation_lt_released hc⟩

/-- No look shows a row of a stale cursor. -/
theorem Past.showsRow (hs : h.Sound) (hp : h.Past n k) {look : Look} {a : Answer}
    (ha : (h.step (.look n look)).1 = .ok a) : a.showsRow = false := by
  cases hclosed : k.closed with
  | true =>
    obtain ⟨c, hc, rfl, -⟩ := hp
    rw [step_look hc] at ha
    exact (Look.run_closed (hs.apt n c hc) hclosed look).2 a ha
  | false =>
    by_cases hclose : look = .close
    · subst hclose
      obtain ⟨c, hc, -, -⟩ := hp
      rw [step_look hc] at ha
      exact Except.ok.inj ha ▸ rfl
    · rw [hp.stale hclosed hclose] at ha
      cases ha

/-! ## Refusals -/

/-- The call is refused because something else uses the index. -/
def Refuses (h : Handle) (call : Call) : Prop :=
  ∃ reason, (h.step call).1 = .error (.busy reason)

/-- Someone has the cursor, it was opened from the store that is attached, and it is neither exhausted
nor closed. -/
def Blocks (h : Handle) (n : Nat) : Prop :=
  ∃ c, h.cursor? n = some c ∧ c.held = true ∧ h.earlier ≤ n ∧ c.cursor.row.isSome = true ∧
    c.cursor.closed = false

theorem Past.not_blocks (hs : h.Sound) (hp : h.Past n k) : ¬ h.Blocks n := by
  rintro ⟨c, hc, -, hle, -, -⟩
  obtain ⟨d, hd, -, hlt⟩ := hp
  obtain rfl : d = c := Option.some.inj (hd.symm.trans hc)
  exact Nat.ne_of_lt hlt (hs.present n d hc hle)

/-- The open cursors that the index counts are those that block an update. -/
theorem openCursors_pos (hs : h.Sound) : 0 < h.index.openCursors ↔ ∃ n, h.Blocks n := by
  rw [hs.tracks.openCursors_pos]
  constructor
  · rintro ⟨n, c, hc, hopen⟩
    obtain ⟨hheld, hgeneration, hclosed⟩ := Index.isOpen_iff.1 hopen
    have hle : h.earlier ≤ n := by
      refine Nat.not_lt.1 fun hlt => ?_
      exact Nat.ne_of_lt (hs.old n c hc hlt) hgeneration
    have hrow : c.cursor.row.isSome = true := by
      rw [Option.isSome_iff_ne_none]
      intro hnone
      rw [(hs.apt n c hc).2 hnone] at hclosed
      cases hclosed
    exact ⟨n, c, hc, hheld, hle, hrow, hclosed⟩
  · rintro ⟨n, c, hc, hheld, hle, -, hclosed⟩
    exact ⟨n, c, hc, Index.isOpen_iff.2 ⟨hheld, hs.present n c hc hle, hclosed⟩⟩

/-- Without a store nothing blocks an update. -/
theorem Blocks.attached (hs : h.Sound) (hb : h.Blocks n) : ∃ id, h.index.connection = some id := by
  obtain ⟨c, hc, -, hle, -⟩ := hb
  refine Option.ne_none_iff_exists'.1 fun hnone => ?_
  rw [hs.detached hnone] at hle
  exact absurd (lt_of_cursor? hc) (Nat.not_lt.2 hle)

theorem admitUpdate_eq (hs : h.Sound) {id : Nat} (hid : h.index.connection = some id) :
    h.index.admitUpdate =
      if 0 < h.index.openCursors then .error (.busy (.openCursors h.index.openCursors)) else .ok id := by
  unfold Index.admitUpdate
  rw [hid]
  simp only [hs.idle, Bool.false_eq_true, if_false]

/-- An update that is refused does not begin. -/
theorem Refuses.update (hs : h.Sound) {request : UpdateRequest} (hr : h.Refuses (.update request)) :
    ∃ reason, h.index.admitUpdate = .error (.busy reason) ∧ (h.step (.update request)).2 = h := by
  obtain ⟨reason, hreason⟩ := hr
  rw [step_update] at hreason ⊢
  rcases update_cases hs request with ⟨e, hadmitted, hupdate⟩ | ⟨_, _, _, _, -, hupdate, -, hfails⟩ <;>
    rw [hupdate] at hreason ⊢
  · obtain rfl : e = .busy reason := Except.error.inj hreason
    exact ⟨reason, hadmitted, rfl⟩
  · cases hfails _ hreason

theorem refuses_update (hs : h.Sound) (request : UpdateRequest) :
    h.Refuses (.update request) ↔ ∃ n, h.Blocks n := by
  constructor
  · intro hr
    obtain ⟨reason, hadmitted, -⟩ := hr.update hs
    cases hid : h.index.connection with
    | none =>
      unfold Index.admitUpdate at hadmitted
      rw [hid] at hadmitted
      cases hadmitted
    | some id =>
      rw [admitUpdate_eq hs hid] at hadmitted
      split at hadmitted
      next hpos => exact (openCursors_pos hs).1 hpos
      next => cases hadmitted
  · rintro ⟨n, hb⟩
    obtain ⟨id, hid⟩ := hb.attached hs
    have hadmitted := admitUpdate_eq hs hid
    rw [if_pos ((openCursors_pos hs).2 ⟨n, hb⟩)] at hadmitted
    refine ⟨.openCursors h.index.openCursors, ?_⟩
    rw [step_update]
    unfold update
    rw [Index.update_refuses hadmitted]
    rfl

/-- After an update the index is as before but for the report, and all connections are there and open
or closed as before. -/
theorem step_update_spares (hs : h.Sound) (request : UpdateRequest) :
    ∃ lastReport w,
      (h.step (.update request)).2 = { h with index := { h.index with lastReport }, work := w } ∧
        h.work.Spares h.work.connections.length w := by
  rw [step_update]
  rcases update_cases hs request with ⟨e, -, hupdate⟩ | ⟨_, _, lastReport, w, -, hupdate, hspares, -⟩
  · exact ⟨h.index.lastReport, h.work, by rw [hupdate], .refl (Nat.le_refl _)⟩
  · exact ⟨lastReport, w, by rw [hupdate], hspares⟩

theorem admitQuestion_detached (hnone : h.index.connection = none) :
    h.index.admitQuestion = .error (.stale .index) := by
  unfold Index.admitQuestion
  rw [hnone]

theorem admitQuestion_attached (hs : h.Sound) {id : Nat} (hid : h.index.connection = some id) :
    h.index.admitQuestion = .ok id := by
  unfold Index.admitQuestion
  rw [hid]
  exact if_neg (Bool.eq_false_iff.1 hs.idle)

/-- A question is refused only if there is no store to ask. -/
theorem step_ask_refused (hs : h.Sound) (q : Question) :
    ¬ h.Refuses (.ask q) ∧
      ((∃ reason, (h.step (.ask q)).1 = .error (.stale reason)) ↔ h.index.connection = none) := by
  unfold Refuses
  rw [step_ask]
  rcases change_cases h q with ⟨e, he, hchange⟩ | ⟨id, _, _, _, hid, hchange, -, -, hfails⟩ <;>
    rw [hchange]
  · -- the question is not admitted, so there is no store
    cases hconnection : h.index.connection with
    | none =>
      obtain rfl : .stale .index = e :=
        Except.error.inj ((admitQuestion_detached hconnection).symm.trans he)
      refine ⟨?_, fun _ => rfl, fun _ => ⟨.index, rfl⟩⟩
      rintro ⟨_, hbusy⟩
      cases hbusy
    | some id =>
      cases (admitQuestion_attached hs hconnection).symm.trans he
  · refine ⟨?_, ?_, fun hnone => ?_⟩
    · rintro ⟨_, hbusy⟩
      cases hfails _ hbusy
    · rintro ⟨_, hstale⟩
      cases hfails _ hstale
    · cases (admitQuestion_detached hnone).symm.trans hid

/-! ## The protocol -/

/-- What an update leaves: the index is as it was but for the report, all connections are there and
open or closed as before, questions are refused only if there is no store, and a further update only
if it was refused before. -/
structure LeftBy (h h' : Handle) : Prop where
  index : h'.index = { h.index with lastReport := h'.index.lastReport }
  connections : h.work.Spares h.work.connections.length h'.work
  admits : ∀ q, ¬ h'.Refuses (.ask q)
  attached : ∀ q, (∃ reason, (h'.step (.ask q)).1 = .error (.stale reason)) ↔ h.index.connection = none
  updates : ∀ request, h'.Refuses (.update request) ↔ h.Refuses (.update request)

theorem step_update_leaves (hs : h.Sound) (request : UpdateRequest) :
    h.LeftBy (h.step (.update request)).2 := by
  have hs' : (h.step (.update request)).2.Sound := hs.step (.update request)
  obtain ⟨lastReport, w, heq, hspares⟩ := step_update_spares hs request
  rw [heq] at hs' ⊢
  exact {
    index := rfl
    connections := hspares
    admits := fun q => (step_ask_refused hs' q).1
    attached := fun q => (step_ask_refused hs' q).2
    updates := fun request' => by
      rw [refuses_update hs', refuses_update hs]
      exact Iff.rfl }

/-- A stale cursor, whatever happens later: it is there, hinders no update and shows no row; unless
it was closed, every look at it fails as stale and changes nothing. -/
structure Outlived (h : Handle) (n : Nat) (closed : Prop) : Prop where
  there : ∃ c, h.cursor? n = some c
  free : ¬ h.Blocks n
  blank : ∀ look a, (h.step (.look n look)).1 = .ok a → a.showsRow = false
  stale : ¬ closed → ∀ look, look ≠ .close → h.step (.look n look) = (.error (.stale .cursor), h)

theorem Past.outlived (hs : h.Sound) (hp : h.Past n k) (calls : List Call) :
    (h.after calls).Outlived n (k.closed = true ∨ .look n .close ∈ calls) := by
  have hs' : (h.after calls).Sound := hs.after calls
  have hlast := hp.after hs calls
  obtain ⟨k', hk'⟩ : ∃ k', (h.after calls).Past n k' :=
    hlast.elim (fun hp => ⟨_, hp⟩) fun hp => ⟨_, hp.2⟩
  refine ⟨?_, hk'.not_blocks hs', fun look a ha => hk'.showsRow hs' ha, fun hnever look hne => ?_⟩
  · obtain ⟨c, hc, -⟩ := hk'
    exact ⟨c, hc⟩
  · rcases hlast with hsame | ⟨hclosed, -⟩
    · exact hsame.stale (Bool.eq_false_iff.2 fun hclosed => hnever (.inl hclosed)) hne
    · exact absurd (.inr hclosed) hnever

/-- **What an index promises after any calls.** An update is refused as long as a cursor that someone
has, opened from the attached store, is neither exhausted nor closed, and only then, and a refused
update changes nothing. However an update ends, it leaves the index as it was but for the report, and
nothing is refused because of it. A cursor that was handed out before a store was released or replaced
never hinders an update again and never shows a row; one that was not closed by then fails every look
as stale until it is closed. -/
theorem protocol (threshold : Int) (work : Workspace) (calls : List Call) :
    let h := run threshold work calls
    (∀ request, (h.Refuses (.update request) ↔ ∃ n, h.Blocks n) ∧
      (h.Refuses (.update request) → (h.step (.update request)).2 = h)) ∧
    (∀ request, h.LeftBy (h.step (.update request)).2) ∧
    (∀ before change after, calls = before ++ change :: after →
      change.Ends (run threshold work before) →
      ∀ n c, (run threshold work before).cursor? n = some c →
        h.Outlived n (c.cursor.closed = true ∨ .look n .close ∈ after)) := by
  intro h
  have hs : h.Sound := run_sound threshold work calls
  refine ⟨fun request => ⟨refuses_update hs request, fun hr => ?_⟩, step_update_leaves hs, ?_⟩
  · obtain ⟨_, -, hsame⟩ := hr.update hs
    exact hsame
  · intro before change later hcalls hends n c hc
    have hs₀ : (run threshold work before).Sound := run_sound threshold work before
    have hpast := past_of_ends hs₀ hends hc
    have hh : h = ((run threshold work before).step change).2.after later := by
      simp only [h, run, Handle.after, hcalls, List.foldl_append, List.foldl_cons]
    rw [hh]
    exact hpast.outlived (hs₀.step change) later

/-- A cursor on its only row hinders an update until the store is released, and is stale then. -/
example (f : Finding) (files : FileTree) (k : Connection) (request : UpdateRequest) :
    let h : Handle := {
      index := { threshold := 0, connection := some 0, cursors := [⟨.ofRows [f], 0, some 0, true⟩], tracked := [0] }
      work := { files, connections := [k] } }
    (h.step (.update request)).1 = .error (.busy (.openCursors 1)) ∧
      ((h.step .release).2.step (.look 0 .hasElement)).1 = .error (.stale .cursor) :=
  ⟨rfl, rfl⟩

end Handle

end Crossref
