/-
The stages of an update, one by one: what each answers and what the target holds
after it. Up to the update itself nothing depends on whether it is staged; the
update, staged or not, does to the target what `Lifecycle.updated` does to the
contents alone; and the export goes the same way whatever the target holds.
-/
import Crossref.Lifecycle
import Crossref.Proofs.Update.Reached
import Crossref.Proofs.Workspace.Connecting

namespace Crossref

namespace Workspace

/-- A connection that an update may be run on; a store in a file stands where its path says. -/
structure IsTarget (w : Workspace) (id : Nat) (path : String) (place : Option Place) (c : Contents) :
    Prop extends w.Holds id path place c where
  inMemory : place = none → path = memoryPath
  onDisk : ∀ p, place = some p → path ≠ memoryPath ∧ w.files.resolve path = .ok p

variable {w w' : Workspace} {id : Nat} {path : String} {place : Option Place} {c c' : Contents}

theorem IsTarget.holds (h : w.IsTarget id path place c) (hw : w'.Holds id path place c')
    (hfiles : FileTree.Alike place w.files w'.files) : w'.IsTarget id path place c' :=
  { hw with
    inMemory := h.inMemory
    onDisk := fun p hp => hfiles.resolve path ▸ h.onDisk p hp }

/-- While a store holds the same, its file does too. -/
theorem Holds.alike_none (h : w.Holds id path place c) (hw : w'.Holds id path place c)
    (hfiles : FileTree.Alike place w.files w'.files) : FileTree.Alike none w.files w'.files := by
  refine ⟨hfiles.cwd, hfiles.links, fun p => ?_⟩
  rcases hfiles.nodes p with heq | ⟨hp, d, d', mtime, hd, hd'⟩
  · exact .inl heq
  · obtain ⟨m, hm⟩ := h.file p hp
    obtain ⟨m', hm'⟩ := hw.file p hp
    obtain ⟨rfl, rfl⟩ := Node.store.inj (Option.some.inj (hd.symm.trans hm))
    obtain ⟨rfl, rfl⟩ := Node.store.inj (Option.some.inj (hd'.symm.trans hm'))
    exact .inl (hd.trans hd'.symm)

end Workspace

open Workspace WorkM

namespace Lifecycle

variable {w : Workspace} {target : Nat} {path : String} {place : Option Place} {c : Contents}

/-! ## Seeding -/

/-- The path names the place of the target. -/
def isAt (t : FileTree) (place : Option Place) (path : String) : Bool :=
  place.any fun p => (t.resolve path).toOption = some p

/-- What an update starts from: the seed, if the target records no file and the seed is another store that can be
used, and else the target. -/
def base (t : FileTree) (place : Option Place) (c : Contents) : Option String → Contents
  | none => c
  | some seed =>
    if c.files.isEmpty && !isAt t place seed && t.isFile (.ofString seed) then (t.index? seed).getD c else c

theorem base_of_recorded (t : FileTree) (place : Option Place) (seed : Option String) (h : c.files.isEmpty = false) :
    base t place c seed = c := by
  cases seed with
  | none => rfl
  | some seed => simp [base, h]

/-- Whether a path names the store of the target comes out as its place says, unless the path cannot be resolved. -/
theorem isSameStore_cases (h : w.IsTarget target path place c) {k : Connection}
    (hk : w.connection? target = some k) (path' : String) :
    isSameStore w.files path' k = .ok (isAt w.files place path') ∨
      ∃ e, w.files.resolve path' = .error e ∧ isSameStore w.files path' k = .error e := by
  obtain ⟨-, hidle⟩ := h.store hk
  unfold isSameStore Connection.isMemory isAt
  rw [hidle.path]
  cases hplace : place with
  | none => exact .inl (by simp [h.inMemory hplace])
  | some p =>
    obtain ⟨hne, hp⟩ := h.onDisk p hplace
    simp only [hne, hp, decide_false, Bool.false_eq_true, if_false]
    cases w.files.resolve path' with
    | error e => exact .inr ⟨e, rfl, rfl⟩
    | ok q => exact .inl (congrArg Except.ok (by simp [Except.toOption]))

/-- Seeding looks at the target, at the paths and at the file before the seed is opened. -/
theorem bootstrap_apply {u : Workspace} {full : Bool} {k : Connection}
    (hu : onStore target Store.hasContent w = (.ok full, u)) (hk : u.connection? target = some k)
    (seed : String) :
    bootstrap target (some seed) w =
      if full then (.ok ⟨.bootstrap, false, "target already has content"⟩, u)
      else
        match isSameStore u.files seed k with
        | .error e => (.error e, u)
        | .ok true => (.ok ⟨.bootstrap, false, "seed is the target"⟩, u)
        | .ok false =>
          if !u.files.isFile (.ofString seed) then (.ok ⟨.bootstrap, false, s!"seed {seed} not found"⟩, u)
          else
            match withConnection seed true (fun source => copy source target) u with
            | (.ok _, v) => (.ok ⟨.bootstrap, true, ""⟩, v)
            | (.error e, v) => (.error e, v) := by
  unfold bootstrap
  dsimp only
  rw [bind_apply, hu]
  cases full with
  | true => rfl
  | false =>
    simp only [Bool.false_eq_true, if_false]
    rw [bind_apply, connection_apply hk]
    dsimp only
    rw [get_apply, bind_apply, ofExcept_apply]
    rcases isSameStore u.files seed k with e | _ | _
    · rfl
    · dsimp only
      simp only [Bool.false_eq_true, if_false]
      split
      · rfl
      · rw [bind_apply]
        rcases withConnection seed true (fun source => copy source target) u with ⟨_ | _, _⟩ <;> rfl
    · rfl

/-- A seed that is opened is copied into the target. -/
theorem seed_ends (h : w.Holds target path place c) (seed : String) :
    (∃ d u, w.files.index? seed = some d ∧
        withConnection seed true (fun source => copy source target) w = (.ok ⟨⟩, u) ∧
        u.Holds target path place d ∧ FileTree.Alike place w.files u.files) ∨
      ∃ e, readable w.files seed = .error e ∧
        withConnection seed true (fun source => copy source target) w = (.error e, w) := by
  have hconnect := connect_readOnly seed w
  cases hread : readable w.files seed with
  | error e =>
    rw [hread] at hconnect
    exact .inr ⟨e, rfl, withConnection_error hconnect⟩
  | ok found =>
    obtain ⟨q, d⟩ := found
    rw [hread] at hconnect
    obtain ⟨hindex, mtime, hnode⟩ := index?_of_readable hread
    have hsource := connection?_add_self w (fileConnection q seed true d)
    have hshows : ((w.add (fileConnection q seed true d)).storeOf (fileConnection q seed true d)).contents = d := by
      have hnode' : (w.add (fileConnection q seed true d)).files.node? q = some (.store d mtime) := hnode
      simp only [storeOf, fileConnection] at hnode' ⊢
      rw [hnode']
      rfl
    have hne : w.connections.length ≠ target := (Nat.ne_of_lt h.connection_lt).symm
    obtain ⟨v, hcopy, hholds, hbeside⟩ := copy_holds (h.add _) hsource rfl hshows hne
    have hclosed := (hbeside.others _ hne).trans hsource
    refine .inl ⟨d, _, hindex, withConnection_apply hconnect hcopy hclosed, ?_, hbeside.files⟩
    exact hholds.beside (setConnection_beside _ none _) hne.symm fun _ _ => by simp

/-- The seeding went well, and the target holds the base; or the seed could not be opened, and the
target is as it was. -/
theorem bootstrap_ends (h : w.IsTarget target path place c) (hc : c.IsIndex) (seed : Option String) :
    (∃ o u, bootstrap target seed w = (.ok o, u) ∧ u.IsTarget target path place (base w.files place c seed) ∧
        FileTree.Alike place w.files u.files) ∨
      ∃ e u s, bootstrap target seed w = (.error e, u) ∧ u.Holds target path place c ∧
        seed = some s ∧ c.files.isEmpty = true ∧
        (w.files.resolve s = .error e ∨ (connect s true w).1 = .error e) := by
  cases seed with
  | none => exact .inl ⟨_, w, rfl, h, .refl _⟩
  | some s =>
    have hcontent : Store.hasContent (c.idle path) = (.ok !c.files.isEmpty, c.idle path) :=
      Store.hasContent_apply rfl hc.toComplete
    obtain ⟨u, hu, hholds, hbeside⟩ := onStore_holds h.toHolds hcontent (c.isIdle_idle path)
    have htarget := h.holds hholds hbeside.files
    have hfiles := h.toHolds.alike_none hholds hbeside.files
    obtain ⟨k, hk, -⟩ := hholds.connection
    rw [bootstrap_apply hu hk, ← hfiles.isFile]
    cases hempty : c.files.isEmpty with
    | false =>
      rw [base_of_recorded w.files place _ hempty]
      exact .inl ⟨_, u, rfl, htarget, hbeside.files⟩
    | true =>
      rw [if_neg (by simp)]
      have hat : isAt u.files place s = isAt w.files place s := by
        unfold isAt
        rw [hfiles.resolve]
      rcases isSameStore_cases htarget hk s with hsame | ⟨e, hresolve, hsame⟩
      · rw [hsame, hat]
        cases hself : isAt w.files place s with
        | true =>
          have hbase : base w.files place c (some s) = c := by simp [base, hself]
          rw [hbase]
          exact .inl ⟨_, u, rfl, htarget, hbeside.files⟩
        | false =>
          cases hfile : w.files.isFile (.ofString s) with
          | false =>
            have hbase : base w.files place c (some s) = c := by simp [base, hfile]
            rw [hbase]
            exact .inl ⟨_, u, rfl, htarget, hbeside.files⟩
          | true =>
            dsimp only
            rw [if_neg (by simp)]
            rcases seed_ends hholds s with ⟨d, v, hindex, hcopied, hv, hvfiles⟩ | ⟨e, hread, hrefused⟩
            · have hbase : base w.files place c (some s) = d := by
                rw [← hfiles.index?_eq] at hindex
                simp [base, hempty, hself, hfile, hindex]
              rw [hcopied, hbase]
              exact .inl ⟨_, v, rfl, htarget.holds hv hvfiles, hbeside.files.trans hvfiles⟩
            · rw [hrefused]
              refine .inr ⟨e, u, s, rfl, hholds, rfl, rfl, .inr ?_⟩
              rw [connect_readOnly, readable_alike hfiles, hread]
      · rw [hsame]
        exact .inr ⟨e, u, s, rfl, hholds, rfl, rfl, .inl (hfiles.resolve s ▸ hresolve)⟩

/-! ## Planning -/

/-- The plan that is made for contents. -/
def planned (t : FileTree) (files : List ArtifactFile) (includeRuntime : Bool) (c : Contents) :
    Except Failure UpdatePlan :=
  (files.mapM (Update.locate t)).map (Update.planFor t c.artifactStamps includeRuntime)

/-- A plan does not look into a store. -/
theorem planned_alike {t t' : FileTree} (h : FileTree.Alike place t t') (files : List ArtifactFile)
    (includeRuntime : Bool) (c : Contents) :
    planned t files includeRuntime c = planned t' files includeRuntime c := by
  have hlocate : Update.locate t = Update.locate t' := by
    funext a
    unfold Update.locate
    rw [h.resolve]
  have hverdict : Update.verdict t = Update.verdict t' := by
    funext stamps runtime a
    unfold Update.verdict
    rw [h.stat, h.read]
  unfold planned Update.planFor
  rw [hlocate, hverdict]

theorem plan_ends (h : w.IsTarget target path place c) (hc : c.IsIndex) (files : List ArtifactFile)
    (includeRuntime : Bool) :
    ∃ u, plan target files includeRuntime w = (planned w.files files includeRuntime c, u) ∧
      u.IsTarget target path place c ∧ FileTree.Alike place w.files u.files := by
  obtain ⟨u, hu, hholds, hbeside⟩ := onStore_holds h.toHolds
    (Update.plan_apply (s := c.idle path) (t := w.files) rfl hc files includeRuntime) (c.isIdle_idle path)
  refine ⟨u, ?_, h.holds hholds hbeside.files, hbeside.files⟩
  obtain ⟨k, hk, hidle, -⟩ := h.connection
  have hschema : needSchema target w = (.ok ⟨⟩, w) := by
    unfold needSchema
    rw [bind_apply, connection_apply hk]
    simp only [hidle.isOpen, Bool.not_true, Bool.false_eq_true, if_false]
    rfl
  unfold plan
  rw [bind_apply, hschema]
  dsimp only
  rw [get_apply]
  exact hu

/-! ## The update -/

/-- What carrying out a plan does to the contents of a store: the answer, and the contents after it. -/
def updated (path : String) (t : FileTree) (cancel : Nat → Bool) (now : Int) (p : UpdatePlan) (c : Contents) :
    Except Failure UpdateStats × Contents :=
  let r := Update.apply t cancel now p (c.idle path)
  (r.1.map (·.1), r.2.contents)

theorem updated_apply (path : String) (t : FileTree) (cancel : Nat → Bool) (now : Int) (p : UpdatePlan)
    (c : Contents) :
    updated path t cancel now p c =
      match Update.readStale t cancel p.stale with
      | .error e => (.error e, c)
      | .ok batch =>
        let r := Update.merge p batch now (c.idle path)
        (r.1, r.2.contents) := by
  unfold updated Update.apply
  cases Update.readStale t cancel p.stale with
  | error e => rfl
  | ok batch =>
    dsimp only
    rw [StoreM.bind_apply]
    rcases Update.merge p batch now (c.idle path) with ⟨_ | _, _⟩ <;> rfl

/-- Reading does not look into a store. -/
theorem readStale_alike {t t' : FileTree} (h : FileTree.Alike place t t') (cancel : Nat → Bool)
    (stale : List StaleArtifact) : Update.readStale t cancel stale = Update.readStale t' cancel stale := by
  have hread (p : String) : Update.readArtifact t p = Update.readArtifact t' p := by
    unfold Update.readArtifact
    rw [h.read]
  have hfrom (total : Nat) : ∀ (stale : List StaleArtifact) (i : Nat),
      Update.readFrom t cancel total i stale = Update.readFrom t' cancel total i stale := by
    intro stale
    induction stale with
    | nil => exact fun _ => rfl
    | cons st rest ih =>
      intro i
      unfold Update.readFrom
      rw [hread, ih]
  exact hfrom stale.length stale 0

theorem updated_alike {t t' : FileTree} (h : FileTree.Alike place t t') (path : String) (cancel : Nat → Bool)
    (now : Int) (p : UpdatePlan) (c : Contents) :
    updated path t cancel now p c = updated path t' cancel now p c := by
  rw [updated_apply, updated_apply, readStale_alike h]

variable {t : FileTree} {cancel : Nat → Bool} {now : Int} {p : UpdatePlan}

/-- An update that raises takes everything back. -/
theorem updated_error (hc : c.Reached) {e : Failure} (h : (updated path t cancel now p c).1 = .error e) :
    (updated path t cancel now p c).2 = c := by
  obtain ⟨L, hm⟩ := hc.mirrors
  rw [updated_apply] at h ⊢
  cases hread : Update.readStale t cancel p.stale with
  | error e => rfl
  | ok batch =>
    simp only [hread] at h ⊢
    rw [Update.merge_apply (c.isIdle_idle path) hm (Update.readStale_named hread)] at h ⊢
    split at h
    · cases h
    · rfl

/-- A store at another path becomes the same, and what is answered differs at most in the path in a failure. -/
theorem updated_paths (t : FileTree) (cancel : Nat → Bool) (now : Int) (p : UpdatePlan) (hc : c.Reached)
    (path path' : String) :
    (updated path t cancel now p c).1.mapError Failure.unplaced =
        (updated path' t cancel now p c).1.mapError Failure.unplaced ∧
      (updated path t cancel now p c).2 = (updated path' t cancel now p c).2 := by
  obtain ⟨L, hm⟩ := hc.mirrors
  rw [updated_apply, updated_apply]
  cases hread : Update.readStale t cancel p.stale with
  | error e => exact ⟨rfl, rfl⟩
  | ok batch =>
    exact Update.merge_alike (c.isIdle_idle path) (c.isIdle_idle path') rfl hm (Update.readStale_named hread) p now

theorem updated_reached (hc : c.Reached) : (updated path t cancel now p c).2.Reached := by
  rw [updated_apply]
  cases hread : Update.readStale t cancel p.stale with
  | error e => exact hc
  | ok batch =>
    exact Update.reached_merge (c.isIdle_idle path) hc hread now

theorem updated_succeeds (hc : c.Reached) : c.Succeeds (updated path t cancel now p c).2 := by
  obtain ⟨L, hm⟩ := hc.mirrors
  rw [updated_apply]
  cases hread : Update.readStale t cancel p.stale with
  | error e => exact Std.Refl.refl c
  | ok batch =>
    exact Update.merge_succeeds (c.isIdle_idle path) hm (Update.readStale_named hread) p now

/-- In place the target becomes what the plan makes of its contents. -/
theorem apply_ends (h : w.Holds target path place c) (hc : c.Reached) (cancel : Nat → Bool) (now : Int)
    (p : UpdatePlan) :
    ∃ u, apply target cancel now p w = ((updated path w.files cancel now p c).1, u) ∧
      u.Holds target path place (updated path w.files cancel now p c).2 ∧ Beside target place w u := by
  obtain ⟨L, hm⟩ := hc.mirrors
  unfold apply
  rw [get_apply, bind_apply, updated_apply]
  cases hread : Update.readStale w.files cancel p.stale with
  | error e => exact ⟨w, rfl, h, .refl w⟩
  | ok batch =>
    have hnamed := Update.readStale_named hread
    have hprogress : ({ w with progress := w.progress ++ batch.progress } : Workspace).Holds target path
        place c := { h with }
    obtain ⟨u, hu, hholds, hbeside⟩ := onStore_holds hprogress (x := Update.merge p batch now) rfl
      (Update.merge_idle (c.isIdle_idle path) hm hnamed p now).1
    exact ⟨u, hu, hholds, { hbeside with }⟩

/-- What a staged update does with the connection to memory. -/
def inMemory (target memory : Nat) (request : UpdateRequest) (p : UpdatePlan) : WorkM UpdateStats := do
  copy target memory
  let stats ← apply memory request.cancel request.now p
  copy memory target
  pure { stats with staged := true }

theorem applyStaged_eq (target : Nat) (request : UpdateRequest) (p : UpdatePlan) :
    applyStaged target request p =
      withConnection memoryPath false fun memory => inMemory target memory request p := rfl

section
variable {memory : Nat} {request : UpdateRequest} {w₁ w₂ : Workspace}
  (hcopy : copy target memory w = (.ok ⟨⟩, w₁))
include hcopy

theorem inMemory_error {e : Failure}
    (happly : apply memory request.cancel request.now p w₁ = (.error e, w₂)) :
    inMemory target memory request p w = (.error e, w₂) := by
  unfold inMemory
  rw [bind_apply, hcopy]
  dsimp only
  rw [bind_apply, happly]

theorem inMemory_ok {stats : UpdateStats} {w₃ : Workspace}
    (happly : apply memory request.cancel request.now p w₁ = (.ok stats, w₂))
    (hback : copy memory target w₂ = (.ok ⟨⟩, w₃)) :
    inMemory target memory request p w = (.ok { stats with staged := true }, w₃) := by
  unfold inMemory
  rw [bind_apply, hcopy]
  dsimp only
  rw [bind_apply, happly]
  dsimp only
  rw [bind_apply, hback]
  rfl

end

/-- In memory the same happens, and the target gets it when it is done. -/
theorem applyStaged_ends (h : w.Holds target path place c) (hc : c.Reached) (request : UpdateRequest)
    (p : UpdatePlan) :
    ∃ u, applyStaged target request p w =
        ((updated memoryPath w.files request.cancel request.now p c).1.map fun s => { s with staged := true }, u) ∧
      u.Holds target path place (updated memoryPath w.files request.cancel request.now p c).2 ∧
      FileTree.Alike place w.files u.files := by
  have hne : target ≠ w.connections.length := Nat.ne_of_lt h.connection_lt
  have hmemory : (w.add (memoryConnection memoryPath)).Holds w.connections.length memoryPath none .empty :=
    h.added ⟨rfl, rfl, rfl, rfl, rfl, rfl⟩ (fun _ => rfl) fun _ hp => by cases hp
  have hopened := connect_memory (w := w) (.inl rfl)
  -- the target is copied into memory and updated there
  obtain ⟨k, hk, hopen, hshows⟩ := (h.add (memoryConnection memoryPath)).source
  obtain ⟨w₁, hcopy, hmemory₁, hbeside₁⟩ := copy_holds hmemory hk hopen hshows hne
  obtain ⟨w₂, happly, hmemory₂, hbeside₂⟩ := apply_ends hmemory₁ hc request.cancel request.now p
  have hbeside := hbeside₁.trans hbeside₂
  have htarget := (h.add (memoryConnection memoryPath)).beside hbeside hne fun _ _ => by simp
  have hupdated : updated memoryPath w₁.files request.cancel request.now p c =
      updated memoryPath w.files request.cancel request.now p c :=
    (updated_alike hbeside₁.files _ _ _ _ _).symm
  have hfiles : FileTree.Alike place w.files w₂.files :=
    ⟨hbeside.files.cwd, hbeside.files.links, fun q => .inl (hbeside.files.node?_eq q)⟩
  rw [hupdated] at happly hmemory₂
  rw [applyStaged_eq]
  cases hresult : (updated memoryPath w.files request.cancel request.now p c).1 with
  | error e =>
    rw [hresult] at happly
    obtain ⟨km, hkm, -⟩ := hmemory₂.connection
    refine ⟨_, withConnection_apply hopened (inMemory_error hcopy happly) hkm, ?_, hfiles⟩
    rw [updated_error hc hresult]
    exact htarget.beside (setConnection_beside _ none _) hne fun _ _ => by simp
  | ok stats =>
    -- the target takes over what was made in memory
    obtain ⟨km, hkm, hkmopen, hkmshows⟩ := hmemory₂.source
    obtain ⟨w₃, hback, hholds, hbeside₃⟩ := copy_holds htarget hkm hkmopen hkmshows hne.symm
    have hkm₃ := (hbeside₃.others _ hne.symm).trans hkm
    rw [hresult] at happly
    refine ⟨_, withConnection_apply hopened (inMemory_ok hcopy happly hback) hkm₃, ?_,
      hfiles.trans hbeside₃.files⟩
    exact hholds.beside (setConnection_beside _ none _) hne fun _ _ => by simp

/-! ## The export -/

/-- The last connection that was made was one to the output, and its store shows the contents. -/
def Exported (w : Workspace) (output : String) (c : Contents) : Prop :=
  ∃ k, w.connections.getLast? = some k ∧ k.path = output ∧ (w.storeOf k).contents = c

/-- An output that is opened gets what the target holds. -/
theorem sink_ends (h : w.Holds target path place c) {output : String}
    (hplace : place ≠ some (w.files.namedPlace (.ofString output))) :
    ∃ r u, withConnection output false (fun sink => copy target sink) w = (r, u) ∧
      u.Holds target path place c ∧
      match writeFault w.files output with
      | some e => r = .error e
      | none => r = .ok ⟨⟩ ∧ Exported u output c := by
  rcases connect_ends h hplace with
    ⟨e, u, hfault, hconnect, hu⟩ | ⟨q, d, u, hfault, hconnect, hu, hsink, hlength, hq⟩
  · rw [hfault]
    exact ⟨_, u, withConnection_error hconnect, hu, rfl⟩
  · rw [hfault]
    have hne : target ≠ w.connections.length := Nat.ne_of_lt h.connection_lt
    obtain ⟨k, hk, hopen, hshows⟩ := hu.source
    obtain ⟨v, hcopy, hcopied, hbeside⟩ := copy_holds hsink hk hopen hshows hne
    obtain ⟨ks, hks, hsinkIdle, -⟩ := hcopied.connection
    have hclosed := setConnection_beside (w := v) w.connections.length none { ks with isOpen := false }
    refine ⟨_, _, withConnection_apply hconnect hcopy hks, ?_, rfl, { ks with isOpen := false }, ?_,
      hsinkIdle.path, congrArg Store.contents (hcopied.store hks).1⟩
    · exact (hu.beside hbeside hne fun p hp => hq p hp).beside hclosed hne fun _ _ => by simp
    · have hlast : v.connections.length - 1 = w.connections.length := by
        rw [hbeside.length, hlength, Nat.add_sub_cancel]
      rw [List.getLast?_eq_getElem?, hclosed.length, hlast]
      exact connection?_setConnection hks

/-- The export looks at the paths and at the directory before the output is opened. -/
theorem exportTo_apply (h : w.IsTarget target path place c) (output : String) :
    exportTo target (some output) w =
      match w.files.resolve output with
      | .error e => (.error e, w)
      | .ok q =>
        let parent := Path.ofPlace q.dropLast
        if place = some q then (.ok ⟨.export, false, "output is the target"⟩, w)
        else if !w.files.isDirectory parent then
          (.ok ⟨.export, false, s!"{parent.toString} is not a writable directory"⟩, w)
        else
          match withConnection output false (fun sink => copy target sink) w with
          | (.ok _, v) => (.ok ⟨.export, true, ""⟩, v)
          | (.error e, v) => (.error e, v) := by
  obtain ⟨k, hk, -⟩ := h.connection
  unfold exportTo
  dsimp only
  rw [bind_apply, connection_apply hk]
  dsimp only
  rw [get_apply, bind_apply, ofExcept_apply]
  rcases isSameStore_cases h hk output with hsame | ⟨e, hresolve, hsame⟩
  · rw [hsame]
    unfold isAt
    cases hresolve : w.files.resolve output with
    | error e =>
      have hother : (place.any fun p => decide ((Except.error e : Except Failure Place).toOption = some p)) = false := by
        cases place <;> rfl
      rw [hother]
      dsimp only
      simp only [Bool.false_eq_true, if_false]
      rw [bind_apply, ofExcept_apply]
    | ok q =>
      have hself : (place.any fun p => decide ((Except.ok q : Except Failure Place).toOption = some p)) =
          decide (place = some q) := by
        cases place <;> simp [Except.toOption, eq_comm]
      rw [hself]
      dsimp only
      by_cases hplace : place = some q
      · simp only [hplace, decide_true, if_true]
        rfl
      · simp only [hplace, decide_false, Bool.false_eq_true, if_false]
        rw [bind_apply, ofExcept_apply]
        dsimp only
        split
        · rfl
        · rw [bind_apply]
          rcases withConnection output false (fun sink => copy target sink) w with ⟨_ | _, _⟩ <;> rfl
  · rw [hsame, hresolve]

/-- What an export comes to, seen from the files alone. -/
def exportOutcome (t : FileTree) (place : Option Place) : Option String → Except Failure StageOutcome
  | none => .ok ⟨.export, false, "no output"⟩
  | some output =>
    match t.resolve output with
    | .error e => .error e
    | .ok q =>
      let parent := Path.ofPlace q.dropLast
      if place = some q then .ok ⟨.export, false, "output is the target"⟩
      else if !t.isDirectory parent then .ok ⟨.export, false, s!"{parent.toString} is not a writable directory"⟩
      else
        match writeFault t output with
        | some e => .error e
        | none => .ok ⟨.export, true, ""⟩

theorem exportOutcome_alike {t t' : FileTree} (h : FileTree.Alike place t t') (output : Option String) :
    exportOutcome t place output = exportOutcome t' place output := by
  cases output with
  | none => rfl
  | some output =>
    unfold exportOutcome
    dsimp only
    rw [← h.resolve]
    cases hresolve : t.resolve output with
    | error e => rfl
    | ok q =>
      dsimp only
      rw [← h.isDirectory]
      split
      · rfl
      next hplace =>
        rw [← FileTree.namedPlace_of_resolve hresolve] at hplace
        rw [writeFault_alike h hplace]

/-- An export leaves the target alone, and one that ran exported what the target holds. -/
theorem exportTo_ends (h : w.IsTarget target path place c) (output : Option String) :
    ∃ u, exportTo target output w = (exportOutcome w.files place output, u) ∧
      u.Holds target path place c ∧
      ∀ o, exportOutcome w.files place output = .ok o → o.ran = true →
        ∃ out, output = some out ∧ Exported u out c := by
  have hskipped {o : StageOutcome} (hran : o.ran = false) :
      ∃ u, ((.ok o, w) : Except Failure StageOutcome × Workspace) = (.ok o, u) ∧
        u.Holds target path place c ∧
        ∀ o', Except.ok o = (.ok o' : Except Failure StageOutcome) → o'.ran = true →
          ∃ out, output = some out ∧ Exported u out c := by
    refine ⟨w, rfl, h.toHolds, fun o' ho hran' => ?_⟩
    rw [← Except.ok.inj ho, hran] at hran'
    cases hran'
  cases output with
  | none => exact hskipped rfl
  | some output =>
    rw [exportTo_apply h]
    unfold exportOutcome
    dsimp only
    cases hresolve : w.files.resolve output with
    | error e => exact ⟨w, rfl, h.toHolds, fun o ho => by cases ho⟩
    | ok q =>
      dsimp only
      by_cases hplace : place = some q
      · rw [if_pos hplace, if_pos hplace]
        exact hskipped rfl
      · rw [if_neg hplace, if_neg hplace]
        split
        · exact hskipped rfl
        · rw [← FileTree.namedPlace_of_resolve hresolve] at hplace
          obtain ⟨r, u, hsink, hu, hfault⟩ := sink_ends h.toHolds hplace
          rw [hsink]
          cases hwrite : writeFault w.files output with
          | some e =>
            rw [hwrite] at hfault
            subst hfault
            exact ⟨u, rfl, hu, fun o ho => by cases ho⟩
          | none =>
            rw [hwrite] at hfault
            obtain ⟨rfl, hexported⟩ := hfault
            exact ⟨u, rfl, hu, fun _ _ _ => ⟨output, rfl, hexported⟩⟩

end Lifecycle

end Crossref
