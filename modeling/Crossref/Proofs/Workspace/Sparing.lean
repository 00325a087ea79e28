/-
What an update leaves alone. However the update of a store ends, every connection
that was there is open or closed as before, and the update never fails in the way
in which an index refuses its use. Both hold of each part of an update, whatever
the stores contain.
-/
import Crossref.Proofs.Index.Asking
import Crossref.Proofs.Update.Acting
import Crossref.Proofs.Workspace.Connecting

namespace Crossref

/-- An index is used when it must not be. -/
def Failure.ofIndex : Failure → Bool
  | .busy _ | .stale _ => true
  | _ => false

theorem Failure.ofIndex_of_ofStatement {e : Failure} (h : e.ofStatement = true) : e.ofIndex = false := by
  cases e <;> first | rfl | cases h

/-! ## Stores -/

namespace StoreM

/-- The operation does not fail for the use of an index. -/
def Neutral {α : Type} (x : StoreM α) : Prop :=
  ∀ s e, (x s).1 = .error e → e.ofIndex = false

variable {α β : Type}

theorem Acts.neutral {R : Contents → Contents → Prop} {x : StoreM α} (h : Acts R x) : Neutral x :=
  fun _ _ he => Failure.ofIndex_of_ofStatement (h.fails he)

namespace Neutral

theorem pure (a : α) : Neutral (pure a : StoreM α) := by
  intro s e h
  have hok : (Except.ok a : Except Failure α) = .error e := h
  cases hok

theorem throw {e : Failure} (he : e.ofIndex = false) : Neutral (throw e : StoreM α) :=
  fun _ _ h => Except.error.inj h ▸ he

/-- What would come after a failure does not matter. -/
theorem throw_bind {e : Failure} (he : e.ofIndex = false) (f : α → StoreM β) :
    Neutral ((MonadExcept.throw e : StoreM α) >>= f) :=
  fun _ _ h => Except.error.inj h ▸ he

theorem bind {x : StoreM α} {f : α → StoreM β} (hx : Neutral x) (hf : ∀ a, Neutral (f a)) :
    Neutral (x >>= f) := by
  intro s e h
  rw [bind_apply] at h
  rcases hr : x s with ⟨e' | a, s'⟩ <;> simp only [hr] at h
  · obtain rfl := Except.error.inj h
    exact hx s _ (by rw [hr])
  · exact hf a s' e h

theorem get {f : Store → StoreM β} (hf : ∀ s, Neutral (f s)) : Neutral (get >>= f) :=
  fun s e h => hf s s e h

/-- The failure may be put in other words. -/
theorem throwing {x : StoreM α} {g : Failure → Failure} (hx : Neutral x)
    (hg : ∀ e, e.ofIndex = false → (g e).ofIndex = false) :
    Neutral (tryCatch x fun e => MonadExcept.throw (g e)) := by
  intro s e h
  have happly := throwing_apply x g s
  rcases hr : x s with ⟨e' | a, s'⟩ <;> rw [hr] at happly <;> rw [happly] at h
  · exact Except.error.inj h ▸ hg e' (hx s e' (by rw [hr]))
  · cases h

theorem modify (g : Store → Store) : Neutral (modify g : StoreM PUnit) :=
  fun _ _ h => by cases h

theorem set (s : Store) : Neutral (set s : StoreM PUnit) :=
  fun _ _ h => by cases h

theorem leave : Neutral leave := by
  refine (modify _).bind fun _ => get fun s => ?_
  split
  · split
    · exact throw rfl
    · exact set _
  · exact pure _

theorem abandon : Neutral abandon := by
  refine (modify _).bind fun _ => get fun s => ?_
  split
  · split
    · exact throw rfl
    · exact set _
  · exact pure _

theorem transaction {x : StoreM α} (hx : Neutral x) : Neutral (StoreM.transaction x) := by
  intro s e h
  rw [block_apply] at h
  rcases hr : x s.enter with ⟨e' | a, s'⟩ <;> rw [hr] at h
  · have he' : e'.ofIndex = false := hx s.enter e' (by rw [hr])
    exact abandon.bind (fun _ => throw he') s' e h
  · exact leave.bind (fun _ => pure a) s' e h

theorem query (tables : List Table) (numbers : List Int) (answer : Contents → α) :
    Neutral (query tables numbers answer) :=
  (Acts.query (R := (· = ·)) tables numbers answer).neutral

end Neutral

end StoreM

open StoreM

theorem FileTree.resolve_neutral {t : FileTree} {path : String} {e : Failure} (h : t.resolve path = .error e) :
    e.ofIndex = false := by
  unfold resolve at h
  dsimp only at h
  split at h
  · exact Except.error.inj h ▸ rfl
  · split at h
    · exact Except.error.inj h ▸ rfl
    · split at h
      · exact Except.error.inj h ▸ rfl
      · cases h

theorem Store.stats_neutral : Neutral Store.stats := by
  unfold Store.stats Store.setting?
  refine (Neutral.query _ _ _).bind fun recorded => (Neutral.query _ _ _).bind fun byKind =>
    (Neutral.query _ _ _).bind fun files => (Neutral.query _ _ _).bind fun artifacts =>
    (Neutral.query _ _ _).bind fun entities => (Neutral.query _ _ _).bind fun references =>
    (Neutral.query _ _ _).bind fun parameters => (Neutral.query _ _ _).bind fun pending => ?_
  refine Neutral.bind ?_ fun indexed => Neutral.pure _
  unfold Store.isIndexed
  cases recorded with
  | none => exact Neutral.pure _
  | some text =>
    dsimp only
    split
    · exact Neutral.pure _
    · split
      · exact Neutral.pure _
      · exact Neutral.throw rfl

theorem Store.checkSchema_neutral : Neutral Store.checkSchema := by
  refine Neutral.get fun s => (Neutral.query _ _ _).bind fun found => ?_
  dsimp only
  split
  · exact Neutral.throw_bind rfl _
  · refine (Neutral.query _ _ _).bind fun version => ?_
    split
    · exact Neutral.throw_bind rfl _
    · split
      · exact Neutral.throw rfl
      · exact Neutral.pure _

theorem Store.entity?_neutral (id : Int) : Neutral (Store.entity? id) := by
  unfold Store.entity?
  split
  · exact Neutral.pure _
  · exact Neutral.query _ _ _

namespace Update

theorem plan_neutral (t : FileTree) (files : List ArtifactFile) (includeRuntime : Bool) :
    Neutral (plan t files includeRuntime) := by
  refine Neutral.get fun s => ?_
  have hreading : ∀ e, e.ofIndex = false → (readFailure s.path e).ofIndex = false := by
    intro e he
    cases e <;> first | rfl | exact he
  have hstamps : Neutral (do Store.checkSchema; Store.artifactStamps) :=
    Store.checkSchema_neutral.bind fun _ => Neutral.query _ _ _
  refine (hstamps.throwing hreading).bind fun stamps => ?_
  cases hlocated : files.mapM (locate t) with
  | ok located => exact Neutral.pure _
  | error e =>
    obtain ⟨f, -, hresolve⟩ := mapM_locate_error hlocated
    exact Neutral.throw (FileTree.resolve_neutral hresolve)

theorem merge_neutral (p : UpdatePlan) (b : ReadBatch) (now : Int) : Neutral (merge p b now) := by
  refine Neutral.get fun s => ?_
  have hmerging : ∀ e, e.ofIndex = false → (mergeFailure s.path e).ofIndex = false := by
    intro e he
    cases e <;> first | rfl | exact he
  have hbatch : Neutral (StoreM.transaction (mergeBatch b p.touched now)) :=
    (mergeBatch_acts b p.touched now).neutral.transaction
  exact (hbatch.throwing hmerging).bind fun counts => Store.stats_neutral.bind fun stats =>
    Neutral.pure _

end Update

/-! ## Workspaces -/

/-- The first `n` connections are there, and open or closed as they were. -/
structure Workspace.Spares (n : Nat) (w w' : Workspace) : Prop where
  grows : n ≤ w'.connections.length
  opens : ∀ i < n, (w'.connection? i).map (·.isOpen) = (w.connection? i).map (·.isOpen)

namespace Workspace.Spares

variable {n : Nat} {w w' w'' : Workspace}

theorem refl (h : n ≤ w.connections.length) : w.Spares n w :=
  ⟨h, fun _ _ => rfl⟩

theorem trans (h : w.Spares n w') (h' : w'.Spares n w'') : w.Spares n w'' :=
  ⟨h'.grows, fun i hi => (h'.opens i hi).trans (h.opens i hi)⟩

/-- What the connections do not notice. -/
theorem of_connections (hn : n ≤ w.connections.length) (h : w'.connections = w.connections) :
    w.Spares n w' :=
  ⟨h ▸ hn, fun i _ => by rw [connection?, connection?, h]⟩

theorem add (hn : n ≤ w.connections.length) (k : Connection) : w.Spares n (w.add k) where
  grows := by
    rw [Workspace.add, List.length_append]
    omega
  opens i hi := by rw [connection?_add (by omega)]

theorem setConnection (hn : n ≤ w.connections.length) {id : Nat} {k k' : Connection}
    (hk : w.connection? id = some k) (h : id < n → k'.isOpen = k.isOpen) :
    w.Spares n (w.setConnection id k') where
  grows := by rwa [Workspace.setConnection, List.length_set]
  opens i hi := by
    by_cases hid : i = id
    · subst hid
      rw [connection?_setConnection hk, hk, Option.map_some, Option.map_some, h hi]
    · rw [(setConnection_beside id none k').others i hid]

theorem publish (hn : n ≤ w.connections.length) (place : Option Place) (c : Contents) :
    w.Spares n (w.publish place c) where
  grows := by rwa [(publish_beside 0 place w c).length]
  opens i _ := by rw [connection?_publish]

theorem keep (hn : n ≤ w.connections.length) {id : Nat} {k : Connection}
    (hk : w.connection? id = some k) (s : Store) : w.Spares n (w.keep id k s) where
  grows := by rwa [(keep_beside id k s).length]
  opens i hi := by
    by_cases hid : i = id
    · subst hid
      rw [connection?_keep hk, hk, Option.map_some, Option.map_some]
      rfl
    · rw [(keep_beside id k s).others i hid]

end Workspace.Spares

open Workspace

namespace WorkM

/-- Where there are `n` connections, the operation spares them, and it does not fail for the use of
an index. -/
structure Spares (n : Nat) {α : Type} (x : WorkM α) : Prop where
  keeps : ∀ {w : Workspace}, n ≤ w.connections.length → w.Spares n (x w).2
  fails : ∀ {w : Workspace}, n ≤ w.connections.length → ∀ e, (x w).1 = .error e → e.ofIndex = false

variable {α β : Type} {n : Nat} {w : Workspace}

/-- How an operation may fail before it changes anything. -/
def Stops (x : WorkM α) (w : Workspace) : Prop :=
  ∃ e, e.ofIndex = false ∧ x w = (.error e, w)

theorem Stops.bind {x : WorkM α} (h : x.Stops w) (f : α → WorkM β) : (x >>= f).Stops w := by
  obtain ⟨e, he, hx⟩ := h
  exact ⟨e, he, by rw [bind_apply, hx]⟩

theorem connection_cases (id : Nat) (w : Workspace) :
    (∃ k, w.connection? id = some k ∧ connection id w = (.ok k, w)) ∨ (connection id).Stops w := by
  cases hk : w.connection? id with
  | some k => exact .inl ⟨k, rfl, connection_apply hk⟩
  | none =>
    refine .inr ⟨.connection (.closed memoryPath), rfl, ?_⟩
    unfold connection
    rw [get_apply, hk]
    rfl

theorem openConnection_cases (id : Nat) (w : Workspace) :
    (∃ k, w.connection? id = some k ∧ k.isOpen = true ∧ openConnection id w = (.ok k, w)) ∨
      (openConnection id).Stops w := by
  rcases connection_cases id w with ⟨k, hk, happly⟩ | hstops
  · cases hopen : k.isOpen with
    | true => exact .inl ⟨k, hk, hopen, openConnection_apply hk hopen⟩
    | false =>
      refine .inr ⟨.connection (.closed k.path), rfl, ?_⟩
      unfold openConnection
      rw [bind_apply, happly]
      simp only [hopen, Bool.false_eq_true, if_false]
      rfl
  · exact .inr (hstops.bind _)

/-- A copy stops, or the target takes over something. -/
theorem copy_cases (source target : Nat) (w : Workspace) :
    (copy source target).Stops w ∨
      ∃ k c, w.connection? target = some k ∧
        copy source target w = (.ok ⟨⟩, (w.setConnection target { k with contents := c }).publish k.place c) := by
  rcases connection_cases target w with ⟨k, -, htarget⟩ | hstops
  · unfold Stops copy
    rw [bind_apply, htarget]
    dsimp only
    by_cases hreadOnly : k.readOnly = true
    · rw [if_pos hreadOnly]
      exact .inl ⟨_, rfl, rfl⟩
    · rw [if_neg hreadOnly]
      rcases openConnection_cases source w with ⟨ks, -, -, hsource⟩ | ⟨e, he, hsource⟩
      · rw [bind_apply, hsource]
        dsimp only
        rcases openConnection_cases target w with ⟨kt, hkt, -, htarget⟩ | ⟨e, he, htarget⟩
        · rw [bind_apply, htarget]
          dsimp only
          by_cases hself : source = target
          · rw [if_pos hself]
            exact .inl ⟨_, rfl, rfl⟩
          · rw [if_neg hself, get_apply]
            by_cases hbusy : (kt.transaction.isRunning || w.reading.contains target) = true
            · rw [if_pos hbusy]
              exact .inl ⟨_, rfl, rfl⟩
            · rw [if_neg hbusy]
              exact .inr ⟨kt, _, hkt, rfl⟩
        · rw [bind_apply, htarget]
          exact .inl ⟨e, he, rfl⟩
      · rw [bind_apply, hsource]
        exact .inl ⟨e, he, rfl⟩
  · exact .inl (hstops.bind _)

namespace Spares

theorem pure (a : α) : Spares n (pure a : WorkM α) :=
  ⟨fun hn => .refl hn, nofun⟩

theorem throw {e : Failure} (he : e.ofIndex = false) : Spares n (throw e : WorkM α) :=
  ⟨fun hn => .refl hn, fun _ _ h => Except.error.inj h ▸ he⟩

theorem bind {x : WorkM α} {f : α → WorkM β} (hx : Spares n x) (hf : ∀ a, Spares n (f a)) :
    Spares n (x >>= f) where
  keeps {w} hn := by
    have hfirst := hx.keeps hn
    rw [bind_apply]
    rcases hr : x w with ⟨e | a, w'⟩ <;> rw [hr] at hfirst
    · exact hfirst
    · exact hfirst.trans ((hf a).keeps hfirst.grows)
  fails {w} hn e h := by
    have hfirst := hx.keeps hn
    rw [bind_apply] at h
    rcases hr : x w with ⟨e' | a, w'⟩ <;> rw [hr] at hfirst <;> simp only [hr] at h
    · exact Except.error.inj h ▸ hx.fails hn e' (by rw [hr])
    · exact (hf a).fails hfirst.grows e h

theorem get {f : Workspace → WorkM β} (hf : ∀ w, Spares n (f w)) : Spares n (get >>= f) :=
  ⟨fun hn => (hf _).keeps hn, fun hn => (hf _).fails hn⟩

theorem modify {g : Workspace → Workspace} (hg : ∀ w, (g w).connections = w.connections) :
    Spares n (modify g : WorkM PUnit) :=
  ⟨fun hn => .of_connections hn (hg _), nofun⟩

theorem ofExcept {r : Except Failure α} (hr : ∀ e, r = .error e → e.ofIndex = false) :
    Spares n (ofExcept r) := by
  cases r with
  | ok a => exact pure a
  | error e => exact throw (hr e rfl)

/-- An operation that stops or ends in a workspace that spares what was there. -/
theorem of_cases {x : WorkM α}
    (h : ∀ w, x.Stops w ∨ (∀ e, (x w).1 = .error e → e.ofIndex = false) ∧
      (n ≤ w.connections.length → w.Spares n (x w).2)) : Spares n x where
  keeps {w} hn := by
    rcases h w with ⟨e, -, hstop⟩ | ⟨-, hkeeps⟩
    · rw [hstop]
      exact .refl hn
    · exact hkeeps hn
  fails {w} _ e he := by
    rcases h w with ⟨e', he', hstop⟩ | ⟨hfails, -⟩
    · rw [hstop] at he
      exact Except.error.inj he ▸ he'
    · exact hfails e he

theorem connection (id : Nat) : Spares n (connection id) := by
  refine of_cases fun w => ?_
  rcases connection_cases id w with ⟨k, -, happly⟩ | hstops
  · rw [happly]
    exact .inr ⟨nofun, .refl⟩
  · exact .inl hstops

theorem onStore {x : StoreM α} (hx : Neutral x) (id : Nat) : Spares n (onStore id x) := by
  refine of_cases fun w => ?_
  rcases openConnection_cases id w with ⟨k, hk, hopen, -⟩ | hstops
  · rw [onStore_apply hk hopen]
    exact .inr ⟨fun e he => hx _ e he, fun hn => .keep hn hk _⟩
  · exact .inl (hstops.bind _)

/-- A connection that is made later may be closed. -/
theorem close {id : Nat} (hid : n ≤ id) : Spares n (close id) := by
  refine of_cases fun w => ?_
  rcases connection_cases id w with ⟨k, hk, -⟩ | hstops
  · rw [close_apply hk]
    exact .inr ⟨nofun, fun hn => .setConnection hn hk fun hlt => absurd hlt (by omega)⟩
  · exact .inl (hstops.bind _)

theorem copy (source target : Nat) : Spares n (copy source target) := by
  refine of_cases fun w => ?_
  rcases copy_cases source target w with hstops | ⟨k, c, hk, happly⟩
  · exact .inl hstops
  · rw [happly]
    refine .inr ⟨nofun, fun hn => ?_⟩
    have hset : w.Spares n (w.setConnection target { k with contents := c }) := .setConnection hn hk fun _ => rfl
    exact hset.trans (.publish hset.grows k.place c)

end Spares

/-! ## Connections of its own -/

theorem opened_neutral {path : String} {readOnly : Bool} {d : Contents} {e : Failure}
    (h : opened path readOnly d = .error e) : e.ofIndex = false := by
  unfold opened at h
  split at h
  · split at h
    · exact Except.error.inj h ▸ rfl
    · cases h
  · cases hcheck : (Store.checkSchema { path, readOnly, contents := d }).1 with
    | error e' =>
      rw [hcheck] at h
      exact Except.error.inj h ▸ Store.checkSchema_neutral _ e' hcheck
    | ok u =>
      rw [hcheck] at h
      cases h

/-- What is opened is handed on with its place. -/
theorem placed_neutral {path : String} {readOnly : Bool} {d : Contents} {q : Place} {e : Failure}
    (h : (opened path readOnly d).map (q, ·) = .error e) : e.ofIndex = false := by
  cases hopened : opened path readOnly d with
  | error e' =>
    rw [hopened] at h
    exact Except.error.inj h ▸ opened_neutral hopened
  | ok d' =>
    rw [hopened] at h
    cases h

theorem readPlace_neutral {t : FileTree} {path : String} {e : Failure} (h : readPlace t path = .error e) :
    e.ofIndex = false := by
  unfold readPlace at h
  dsimp only at h
  split at h
  · exact Except.error.inj h ▸ rfl
  next hresolve => exact Except.error.inj h ▸ FileTree.resolve_neutral hresolve
  · split at h
    · exact Except.error.inj h ▸ rfl
    · cases h

theorem readable_neutral {t : FileTree} {path : String} {e : Failure}
    (h : readable t path = .error e) : e.ofIndex = false := by
  unfold readable at h
  split at h
  · exact Except.error.inj h ▸ rfl
  · split at h
    next hplace => exact Except.error.inj h ▸ readPlace_neutral hplace
    · split at h
      · exact Except.error.inj h ▸ rfl
      · exact Except.error.inj h ▸ rfl
      · exact Except.error.inj h ▸ rfl
      · exact placed_neutral h

theorem writable_neutral {t : FileTree} {path : String} {e : Failure}
    (h : writable t path = .error e) : e.ofIndex = false := by
  unfold writable at h
  split at h
  · exact Except.error.inj h ▸ rfl
  · split at h
    · exact Except.error.inj h ▸ rfl
    · exact Except.error.inj h ▸ rfl
    · split at h
      · exact placed_neutral h
      · exact Except.error.inj h ▸ rfl
    · exact placed_neutral h

/-- A connection is added, or it is refused and at most files are made. -/
theorem connect_cases (path : String) (readOnly : Bool) (w : Workspace) :
    (∃ e t, e.ofIndex = false ∧ connect path readOnly w = (.error e, { w with files := t })) ∨
      ∃ k t, connect path readOnly w =
        (.ok w.connections.length, Workspace.add { w with files := t } k) := by
  cases readOnly with
  | true =>
    rw [connect_readOnly]
    cases hreadable : readable w.files path with
    | error e => exact .inl ⟨e, w.files, readable_neutral hreadable, rfl⟩
    | ok found => exact .inr ⟨_, w.files, rfl⟩
  | false =>
    by_cases hnul : path.toList.contains (Char.ofNat 0) = true
    · refine .inl ⟨.nulInPath, w.files, rfl, ?_⟩
      unfold connect
      simp only [hnul, if_true]
      rfl
    · by_cases hmemory : path = memoryPath ∨ path = ""
      · exact .inr ⟨_, w.files, connect_memory hmemory⟩
      · rw [connect_writable (by simpa using hnul) hmemory]
        cases w.files.makeDirectories (Path.ofString path).parent with
        | error e => exact .inl ⟨_, w.files, rfl, rfl⟩
        | ok t =>
          dsimp only
          cases hwritable : writable t path with
          | error e => exact .inl ⟨e, t, writable_neutral hwritable, rfl⟩
          | ok made => exact .inr ⟨_, _, rfl⟩

/-- What is done with a connection of its own spares those that were there before. -/
theorem Spares.withConnection {path : String} {readOnly : Bool} {body : Nat → WorkM α}
    (hbody : ∀ id, n ≤ id → Spares n (body id)) : Spares n (withConnection path readOnly body) := by
  have hfinally (id : Nat) (hid : n ≤ id) : Spares n (tryFinally (body id) (WorkM.close id)) := by
    constructor
    · intro w hn
      have hfirst := (hbody id hid).keeps hn
      have hlast := (Spares.close hid).keeps hfirst.grows
      rw [tryFinally_apply]
      rcases hc : WorkM.close id (body id w).2 with ⟨_ | _, w'⟩ <;> rw [hc] at hlast <;>
        exact hfirst.trans hlast
    · intro w hn e he
      have hfirst := (hbody id hid).keeps hn
      rw [tryFinally_apply] at he
      rcases hc : WorkM.close id (body id w).2 with ⟨e' | _, w'⟩ <;> rw [hc] at he
      · exact Except.error.inj he ▸ (Spares.close hid).fails hfirst.grows e' (by rw [hc])
      · exact (hbody id hid).fails hn e he
  have hadded {w : Workspace} (hn : n ≤ w.connections.length) (t : FileTree) (k : Connection) :
      w.Spares n (Workspace.add { w with files := t } k) := by
    have hfiles : w.Spares n { w with files := t } := .of_connections hn rfl
    exact hfiles.trans (.add hfiles.grows k)
  constructor
  · intro w hn
    unfold WorkM.withConnection
    rw [bind_apply]
    rcases connect_cases path readOnly w with ⟨e, t, -, hconnect⟩ | ⟨k, t, hconnect⟩
    · rw [hconnect]
      exact .of_connections hn rfl
    · rw [hconnect]
      exact (hadded hn t k).trans ((hfinally _ hn).keeps (hadded hn t k).grows)
  · intro w hn e he
    unfold WorkM.withConnection at he
    rw [bind_apply] at he
    rcases connect_cases path readOnly w with ⟨e', t, he', hconnect⟩ | ⟨k, t, hconnect⟩
    · rw [hconnect] at he
      exact Except.error.inj he ▸ he'
    · rw [hconnect] at he
      exact (hfinally _ hn).fails (hadded hn t k).grows e he

/-- The failure may be put in other words. -/
theorem Spares.throwing {x : WorkM α} {g : Failure → Failure} (hx : Spares n x)
    (hg : ∀ e, e.ofIndex = false → (g e).ofIndex = false) :
    Spares n (tryCatch x fun e => MonadExcept.throw (g e)) where
  keeps {w} hn := by
    have hkeeps := hx.keeps hn
    rw [tryCatch_apply]
    rcases hr : x w with ⟨e | a, w'⟩ <;> rw [hr] at hkeeps <;> exact hkeeps
  fails {w} hn e he := by
    rw [tryCatch_apply] at he
    rcases hr : x w with ⟨e' | a, w'⟩ <;> rw [hr] at he
    · exact Except.error.inj he ▸ hg e' (hx.fails hn e' (by rw [hr]))
    · cases he

end WorkM

/-! ## Updates and questions -/

open WorkM

namespace Lifecycle

variable {n : Nat}

theorem plan_spares (target : Nat) (files : List ArtifactFile) (includeRuntime : Bool) :
    Spares n (plan target files includeRuntime) := by
  have hschema : Spares n (needSchema target) := by
    refine (Spares.connection target).bind fun k => ?_
    split
    · exact Spares.throw rfl
    · exact Spares.pure _
  exact hschema.bind fun _ => Spares.get fun w =>
    Spares.onStore (Update.plan_neutral w.files files includeRuntime) target

theorem apply_spares (target : Nat) (cancel : Nat → Bool) (now : Int) (p : UpdatePlan) :
    Spares n (apply target cancel now p) := by
  refine Spares.get fun w => (Spares.ofExcept fun e he => ?_).bind fun b => ?_
  · obtain ⟨number, rfl⟩ := Update.readFrom_error he
    rfl
  · have hprogress : Spares n (modify fun w => { w with progress := w.progress ++ b.progress }) :=
      Spares.modify fun _ => rfl
    exact hprogress.bind fun _ => Spares.onStore (Update.merge_neutral p b now) target

theorem isSameStore_neutral {t : FileTree} {path : String} {k : Connection} {e : Failure}
    (h : isSameStore t path k = .error e) : e.ofIndex = false := by
  unfold isSameStore at h
  split at h
  · cases h
  · cases hresolve : t.resolve path with
    | error e' =>
      rw [hresolve] at h
      exact Except.error.inj h ▸ FileTree.resolve_neutral hresolve
    | ok q =>
      rw [hresolve] at h
      cases hown : t.resolve k.path with
      | error e' =>
        rw [hown] at h
        exact Except.error.inj h ▸ FileTree.resolve_neutral hown
      | ok q' =>
        rw [hown] at h
        cases h

theorem bootstrap_spares (target : Nat) (seed : Option String) : Spares n (bootstrap target seed) := by
  cases seed with
  | none => exact Spares.pure _
  | some seed =>
    refine (Spares.onStore (Neutral.query _ _ _) target).bind fun full => ?_
    split
    · exact Spares.pure _
    · refine (Spares.connection target).bind fun k => Spares.get fun w => ?_
      refine (Spares.ofExcept fun e => isSameStore_neutral).bind fun same => ?_
      split
      · exact Spares.pure _
      · split
        · exact Spares.pure _
        · exact (Spares.withConnection fun source _ => Spares.copy source target).bind fun _ =>
            Spares.pure _

theorem exportTo_spares (target : Nat) (output : Option String) : Spares n (exportTo target output) := by
  cases output with
  | none => exact Spares.pure _
  | some output =>
    refine (Spares.connection target).bind fun k => Spares.get fun w => ?_
    refine (Spares.ofExcept fun e => isSameStore_neutral).bind fun same => ?_
    split
    · exact Spares.pure _
    · refine (Spares.ofExcept fun e => FileTree.resolve_neutral).bind fun q => ?_
      dsimp only
      split
      · exact Spares.pure _
      · exact (Spares.withConnection fun sink _ => Spares.copy target sink).bind fun _ => Spares.pure _

theorem applyStaged_spares (target : Nat) (request : UpdateRequest) (p : UpdatePlan) :
    Spares n (applyStaged target request p) :=
  Spares.withConnection fun memory _ =>
    (Spares.copy target memory).bind fun _ =>
      (apply_spares memory request.cancel request.now p).bind fun _ =>
        (Spares.copy memory target).bind fun _ => Spares.pure _

/-- **An update spares all connections, whatever it meets, and never fails for the use of an
index.** -/
theorem run_spares (target : Nat) (threshold : Int) (request : UpdateRequest) :
    Spares n (run target threshold request) := by
  refine (bootstrap_spares target request.seed).bind fun bootstrapped =>
    (plan_spares target request.files request.includeRuntime).bind fun p =>
      (Spares.connection target).bind fun k => ?_
  dsimp only
  split
  · exact (applyStaged_spares target request p).bind fun _ =>
      (exportTo_spares target request.output).bind fun _ => Spares.pure _
  · exact (apply_spares target request.cancel request.now p).bind fun _ =>
      (exportTo_spares target request.output).bind fun _ => Spares.pure _

end Lifecycle

theorem Index.ask_spares {α : Type} {n : Nat} {question : StoreM α} (hq : Neutral question) (id : Nat) :
    Spares n (Index.ask id question) := by
  refine (Spares.connection id).bind fun k => (Spares.onStore hq id).throwing fun e he => ?_
  cases e <;> first | rfl | exact he

end Crossref
