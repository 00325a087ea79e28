/-
Linking a batch without a table and without a memo. What a key denotes is said by
the registrations of the batch alone: a named key has the id of its last
registration, a key without a name stands for the key that was registered first at
its place, and any other key is what is known about it outside. Linking finds the
same, registers before it asks, and asks once about each key.
-/
import Mathlib.Data.List.Basic
import Crossref.Proofs.Firsts
import Crossref.Proofs.Ledger
import Crossref.Resolver

namespace Crossref

/-! ## What a key denotes -/

/-- What a batch registered, in order, and what is known outside, if there is somebody to ask. -/
structure Directory where
  registered : List (EntityKey × Int)
  outside : Option (EntityKey → Option Int)

namespace Directory

/-- The id that the last registration of a key gave. -/
def lastId (registered : List (EntityKey × Int)) (key : EntityKey) : Option Int :=
  registered.reverse.lookup key

/-- The key that was registered first at a place. -/
def firstKey (registered : List (EntityKey × Int)) (place : Location) : Option EntityKey :=
  (registered.map (·.1)).find? (·.location = place)

/-- What the batch itself says about a key. -/
def ownId (registered : List (EntityKey × Int)) (key : EntityKey) : Option Int :=
  if key.name = "" then (firstKey registered key.location).bind (lastId registered) else lastId registered key

def answer (d : Directory) (key : EntityKey) : Option Int :=
  (ownId d.registered key).or (d.outside.bind (· key))

/-- A key that the batch says nothing about is asked for, if there is somebody to ask. -/
def asks (d : Directory) (key : EntityKey) : Bool :=
  (ownId d.registered key).isNone && d.outside.isSome

def link (d : Directory) (key : EntityKey) : Link :=
  match d.answer key with
  | some id => .linked id
  | none => .pending key

def reference (d : Directory) (r : Reference) : LinkedReference :=
  ⟨d.link r.target, r.location, r.kind, r.scope.map d.link⟩

def parameter (d : Directory) (p : Parameter) : LinkedParameter :=
  ⟨(ownId d.registered p.owner).getD 0, d.link p.key, p.mode, p.ordinal⟩

def unit (d : Directory) (u : CompilationUnit) : LinkedUnit :=
  ⟨u, u.owned.map fun decl => ((ownId d.registered decl.key).getD 0, decl), u.references.map d.reference,
    u.ownParameters.map d.parameter⟩

end Directory

def Reference.usedKeys (r : Reference) : List EntityKey :=
  r.target :: r.scope.toList

/-- The keys that are linked in a unit, in the order in which they come up. -/
def CompilationUnit.usedKeys (u : CompilationUnit) : List EntityKey :=
  u.references.flatMap (·.usedKeys) ++ u.ownParameters.map (·.key)

namespace Directory

/-- The keys asked for, each once, in the order in which they come up first. -/
def asked (d : Directory) (units : List CompilationUnit) : List EntityKey :=
  ((units.flatMap (·.usedKeys)).filter d.asks).eraseDups

end Directory

/-! ## The table answers like the registrations -/

namespace KeyTable

open Directory

variable {registered : List (EntityKey × Int)} {key : EntityKey}

theorem ofList_snoc (registered : List (EntityKey × Int)) (e : EntityKey × Int) :
    ofList (registered ++ [e]) = (ofList registered).insert e.1 e.2 := by
  rw [ofList, List.foldl_append]
  rfl

theorem lastId_snoc (registered : List (EntityKey × Int)) (e : EntityKey × Int) (key : EntityKey) :
    lastId (registered ++ [e]) key = if key = e.1 then some e.2 else lastId registered key := by
  rw [lastId, List.reverse_append, List.reverse_singleton, List.singleton_append, List.lookup_cons]
  by_cases heq : key = e.1
  · simp [heq]
  · rw [beq_eq_false_iff_ne.2 heq, if_neg heq, lastId]

theorem lastId_isSome : (lastId registered key).isSome = true ↔ key ∈ registered.map (·.1) := by
  induction registered using List.reverseRecOn with
  | nil => simp [lastId]
  | append_singleton registered e ih =>
    rw [lastId_snoc, List.map_append, List.mem_append, List.map_singleton, List.mem_singleton, ← ih]
    by_cases heq : key = e.1 <;> simp [heq]

/-- The table holds the registered keys in the order of their first registration, each with its last id. -/
theorem entries_ofList (registered : List (EntityKey × Int)) :
    (ofList registered).entries =
      (registered.map (·.1)).eraseDups.map fun k => (k, (lastId registered k).getD 0) := by
  induction registered using List.reverseRecOn with
  | nil => rfl
  | append_singleton registered e ih =>
    have hknown : (ofList registered).entries.any (·.1 = e.1) = true ↔ e.1 ∈ registered.map (·.1) := by
      rw [ih, ← List.mem_eraseDups]
      simp
    rw [ofList_snoc, KeyTable.insert, List.map_append, List.map_singleton, eraseDups_snoc]
    by_cases hold : e.1 ∈ registered.map (·.1)
    · rw [if_pos (hknown.2 hold), if_pos hold]
      simp only [ih, List.map_map, Function.comp_def, lastId_snoc]
      refine List.map_congr_left fun k _ => ?_
      by_cases heq : k = e.1 <;> simp [heq]
    · rw [if_neg (mt hknown.1 hold), if_neg hold, List.map_append, List.map_singleton, ih]
      simp only [lastId_snoc, if_true, Option.getD_some]
      congr 1
      refine List.map_congr_left fun k hk => ?_
      have hne : k ≠ e.1 := by
        rintro rfl
        exact hold (List.mem_eraseDups.1 hk)
      rw [if_neg hne]

/-- **The table answers for a batch what its registrations say.** -/
theorem get?_ofList (registered : List (EntityKey × Int)) (key : EntityKey) :
    (ofList registered).get? key = ownId registered key := by
  have hid : ∀ k ∈ registered.map (·.1), some ((lastId registered k).getD 0) = lastId registered k := by
    intro k hk
    obtain ⟨id, hid⟩ := Option.isSome_iff_exists.1 (lastId_isSome.2 hk)
    rw [hid, Option.getD_some]
  rw [get?, entries_ofList, List.find?_map, Option.map_map, find?_eraseDups, ownId]
  by_cases hname : key.name = ""
  · simp only [hname, if_true, firstKey, Function.comp_def]
    cases hfound : (registered.map (·.1)).find? (·.location = key.location) with
    | none => rfl
    | some k => exact hid k (List.mem_of_find?_eq_some hfound)
  · simp only [hname, if_false, Function.comp_def]
    cases hfound : (registered.map (·.1)).find? (· = key) with
    | none =>
      have hnot : ¬(lastId registered key).isSome = true := fun hsome => by
        simpa using List.find?_eq_none.1 hfound key (lastId_isSome.1 hsome)
      exact (Option.not_isSome_iff_eq_none.1 hnot).symm
    | some k =>
      obtain rfl : k = key := by simpa using List.find?_some hfound
      exact hid k (List.mem_of_find?_eq_some hfound)

theorem idOf_ofList (registered : List (EntityKey × Int)) (key : EntityKey) :
    (ofList registered).idOf key = (ownId registered key).getD 0 := by
  rw [idOf, get?_ofList]

/-- Whatever was registered is answered, with or without a name. -/
theorem ownId_isSome (h : key ∈ registered.map (·.1)) : (ownId registered key).isSome = true := by
  rw [ownId]
  split
  · have hfound : ((registered.map (·.1)).find? (·.location = key.location)).isSome = true :=
      List.find?_isSome.2 ⟨key, h, by simp⟩
    obtain ⟨k, hk⟩ := Option.isSome_iff_exists.1 hfound
    rw [firstKey, hk, Option.bind_some]
    exact lastId_isSome.2 (List.mem_of_find?_eq_some hk)
  · exact lastId_isSome.2 h

end KeyTable

/-! ## Registering -/

section
variable {m : Type → Type} [Monad m] [LawfulMonad m]

/-- The table of a batch is made of the ids that registering its declarations gives, one after the other. -/
theorem register_eq (reg : Declaration → m Int) (units : List CompilationUnit) :
    register reg units = (do
      let ids ← (units.flatMap (·.owned)).mapM reg
      pure (KeyTable.ofList (((units.flatMap (·.owned)).map (·.key)).zip ids))) := by
  have hfold (ds : List Declaration) : ∀ t : KeyTable,
      ds.foldlM (fun t d => do pure (t.insert d.key (← reg d))) t = (do
        let ids ← ds.mapM reg
        pure (((ds.map (·.key)).zip ids).foldl (fun t e => t.insert e.1 e.2) t)) := by
    induction ds with
    | nil => intro t; simp
    | cons d ds ih =>
      intro t
      simp only [List.foldlM_cons, List.mapM_cons, List.map_cons, bind_assoc, pure_bind, ih,
        List.zip_cons_cons, List.foldl_cons]
  exact hfold _ .empty

end

/-! ## Looking up -/

theorem get_bind_run {m : Type → Type} [Monad m] [LawfulMonad m] {σ α : Type} (f : σ → StateT σ m α) (a : σ) :
    (get >>= f) a = f a a :=
  pure_bind (a, a) fun p => f p.1 p.2

namespace KeyTable

variable {m : Type → Type} [Monad m] {t : KeyTable} {key : EntityKey} {memo : Memo}

theorem lookup_of_registered {outside : Option (EntityKey → m (Option Int))} {id : Int} (hget : t.get? key = some id) :
    t.lookup outside key memo = pure (some id, memo) := by
  unfold lookup
  rw [hget]
  rfl

theorem lookup_of_nobody (hget : t.get? key = none) :
    t.lookup (none : Option (EntityKey → m (Option Int))) key memo = pure (none, memo) := by
  unfold lookup
  rw [hget]
  rfl

variable [LawfulMonad m]

theorem lookup_of_remembered {ask : EntityKey → m (Option Int)} {answer : Option Int} (hget : t.get? key = none)
    (hmemo : memo.lookup key = some answer) : t.lookup (some ask) key memo = pure (answer, memo) := by
  unfold lookup
  simp only [hget, get_bind_run, hmemo]
  rfl

/-- A key that is neither registered nor remembered is asked for and remembered. -/
theorem lookup_of_new {ask : EntityKey → m (Option Int)} (hget : t.get? key = none) (hmemo : memo.lookup key = none) :
    t.lookup (some ask) key memo = ask key >>= fun answer => pure (answer, memo ++ [(key, answer)]) := by
  unfold lookup
  simp only [hget, get_bind_run, hmemo]
  change ((ask key >>= fun answer => pure (answer, memo)) >>= fun p =>
    (pure (PUnit.unit, p.2 ++ [(key, p.1)]) : m (PUnit × Memo)) >>= fun q => pure (p.1, q.2)) = _
  simp only [bind_assoc, pure_bind]

end KeyTable

/-! ## Asking -/

namespace Directory

variable {m : Type → Type} [Monad m] {α β : Type} (d : Directory) (note : EntityKey → m PUnit)

/-- Asks outside, which is noted and changes no answer. -/
def ask : Option (EntityKey → m (Option Int)) :=
  d.outside.map fun f key => do note key; pure (f key)

/-- What is remembered once keys have come up. -/
def memo (used : List EntityKey) : Memo :=
  (used.filter d.asks).eraseDups.map fun key => (key, d.answer key)

/-- The keys that are asked for when more keys come up. -/
def fresh (used keys : List EntityKey) : List EntityKey :=
  ((keys.filter d.asks).removeAll (used.filter d.asks)).eraseDups

/-- However many keys came up before, `x` yields `a` and asks for the new ones among `keys`. -/
def Yields (x : StateT Memo m α) (keys : List EntityKey) (a : α) : Prop :=
  ∀ used, x (d.memo used) = do forM (d.fresh used keys) note; pure (a, d.memo (used ++ keys))

variable {d note}

theorem fresh_append (used keys keys' : List EntityKey) :
    d.fresh used (keys ++ keys') = d.fresh used keys ++ d.fresh (used ++ keys) keys' := by
  rw [fresh, List.filter_append, List.removeAll, List.filter_append, List.eraseDups_append, fresh, fresh,
    List.filter_append]
  congr 2
  simp only [List.removeAll, List.filter_filter]
  refine List.filter_congr fun k _ => ?_
  by_cases hk : d.asks k <;> by_cases hu : k ∈ used <;> by_cases hk' : k ∈ keys <;> simp [hk, hu, hk']

section
variable [LawfulMonad m]

theorem yields_pure (a : α) : d.Yields note (pure a) [] a := by
  intro used
  have hnone : d.fresh used [] = [] := rfl
  rw [hnone, List.append_nil, List.forM_nil, pure_bind]
  rfl

theorem Yields.bind {x : StateT Memo m α} {f : α → StateT Memo m β} {keys keys' : List EntityKey} {a : α} {b : β}
    (hx : d.Yields note x keys a) (hf : d.Yields note (f a) keys' b) :
    d.Yields note (x >>= f) (keys ++ keys') b := by
  intro used
  change (x (d.memo used) >>= fun p => f p.1 p.2) = _
  rw [hx used, fresh_append, List.forM_append]
  simp only [bind_assoc, pure_bind, hf (used ++ keys), List.append_assoc]

theorem Yields.map {x : StateT Memo m α} {keys : List EntityKey} {a : α} (f : α → β) (hx : d.Yields note x keys a) :
    d.Yields note (do let a ← x; pure (f a)) keys (f a) := by
  have h := hx.bind (f := fun a => pure (f a)) (yields_pure (f a))
  rwa [List.append_nil] at h

theorem Yields.mapM {f : α → StateT Memo m β} {keys : α → List EntityKey} {g : α → β}
    (h : ∀ a, d.Yields note (f a) (keys a) (g a)) (l : List α) :
    d.Yields note (l.mapM f) (l.flatMap keys) (l.map g) := by
  induction l with
  | nil => exact yields_pure []
  | cons a l ih =>
    rw [List.mapM_cons]
    exact (h a).bind (ih.map (g a :: ·))

/-! Each step of linking yields what the directory says. -/

theorem memo_lookup (d : Directory) (used : List EntityKey) {key : EntityKey} (hasks : d.asks key = true) :
    (d.memo used).lookup key = if key ∈ used then some (d.answer key) else none := by
  rw [memo, lookup_map]
  simp [hasks]

/-- A key that is answered without asking changes nothing. -/
theorem yields_of_not_asks {x : StateT Memo m α} {key : EntityKey} {a : α} (hasks : d.asks key = false)
    (hx : ∀ memo, x memo = pure (a, memo)) : d.Yields note x [key] a := by
  intro used
  have hnone : d.fresh used [key] = [] := by simp [fresh, hasks, List.removeAll]
  have hmemo : d.memo (used ++ [key]) = d.memo used := by simp [memo, hasks]
  rw [hx, hnone, hmemo, List.forM_nil, pure_bind]

theorem lookup_yields (key : EntityKey) :
    d.Yields note ((KeyTable.ofList d.registered).lookup (d.ask note) key) [key] (d.answer key) := by
  cases hown : ownId d.registered key with
  | some id =>
    have hanswer : d.answer key = some id := by rw [answer, hown, Option.some_or]
    have hget : (KeyTable.ofList d.registered).get? key = some id := (KeyTable.get?_ofList _ _).trans hown
    rw [hanswer]
    exact yields_of_not_asks (by simp [asks, hown]) fun _ => KeyTable.lookup_of_registered hget
  | none =>
    have hget : (KeyTable.ofList d.registered).get? key = none := (KeyTable.get?_ofList _ _).trans hown
    cases hout : d.outside with
    | none =>
      have hanswer : d.answer key = none := by rw [answer, hown, hout]; rfl
      rw [hanswer, ask, hout]
      exact yields_of_not_asks (by simp [asks, hout]) fun _ => KeyTable.lookup_of_nobody hget
    | some f =>
      have hasks : d.asks key = true := by simp [asks, hown, hout]
      have hanswer : d.answer key = f key := by rw [answer, hown, hout]; rfl
      have hmemo (used : List EntityKey) := memo_lookup d used hasks
      rw [ask, hout, Option.map_some]
      intro used
      by_cases hold : key ∈ used
      · have hnone : d.fresh used [key] = [] := by simp [fresh, hasks, List.removeAll, hold]
        have hsame : d.memo (used ++ [key]) = d.memo used := by simp [memo, hasks, eraseDups_snoc, hold]
        rw [KeyTable.lookup_of_remembered hget ((hmemo used).trans (if_pos hold)), hnone, hsame, List.forM_nil,
          pure_bind]
      · have hone : d.fresh used [key] = [key] := by
          simp [fresh, hasks, List.removeAll, hold, List.eraseDups_cons]
        have hmore : d.memo (used ++ [key]) = d.memo used ++ [(key, f key)] := by
          simp [memo, hasks, eraseDups_snoc, hold, hanswer]
        rw [KeyTable.lookup_of_new hget ((hmemo used).trans (if_neg hold)), hone, hmore, hanswer]
        simp only [List.forM_cons, List.forM_nil, bind_assoc, pure_bind]

theorem link_yields (key : EntityKey) :
    d.Yields note (Crossref.link (KeyTable.ofList d.registered) (d.ask note) key) [key] (d.link key) := by
  let take : Option Int → StateT Memo m Link
    | some id => pure (.linked id)
    | none => pure (.pending key)
  have htake : d.Yields note (take (d.answer key)) [] (d.link key) := by
    rw [link]
    cases d.answer key <;> exact yields_pure _
  exact (lookup_yields key).bind htake

theorem reference_yields (r : Reference) :
    d.Yields note (linkReference (KeyTable.ofList d.registered) (d.ask note) r) r.usedKeys (d.reference r) := by
  have hscope : d.Yields note (r.scope.mapM (Crossref.link (KeyTable.ofList d.registered) (d.ask note)))
      r.scope.toList (r.scope.map d.link) := by
    cases r.scope with
    | none => exact yields_pure none
    | some key => exact (link_yields key).map some
  exact (link_yields r.target).bind (hscope.map fun scope => LinkedReference.mk (d.link r.target) r.location r.kind scope)

theorem parameter_yields (p : Parameter) :
    d.Yields note (linkParameter (KeyTable.ofList d.registered) (d.ask note) p) [p.key] (d.parameter p) := by
  rw [parameter, ← KeyTable.idOf_ofList]
  exact (link_yields p.key).map fun l => LinkedParameter.mk _ l p.mode p.ordinal

theorem unit_yields (u : CompilationUnit) :
    d.Yields note (linkUnit (KeyTable.ofList d.registered) (d.ask note) u) u.usedKeys (d.unit u) := by
  have hreferences := Yields.mapM (fun r => (reference_yields r : d.Yields note _ _ _)) u.references
  have hparameters := Yields.mapM (fun p => (parameter_yields p : d.Yields note _ _ _)) u.ownParameters
  rw [← List.map_eq_flatMap] at hparameters
  rw [unit]
  simp only [← KeyTable.idOf_ofList]
  exact hreferences.bind (hparameters.map fun parameters => LinkedUnit.mk u _ (u.references.map d.reference) parameters)

end

/-! ## What a linked unit holds -/

/-- A link holds the answer, or else its own key. -/
structure Shows (d : Directory) (key : EntityKey) (l : Link) : Prop where
  id : l.id? = d.answer key
  pending : l.pending? = if (d.answer key).isSome then none else some key

structure ShowsReference (d : Directory) (r : Reference) (l : LinkedReference) : Prop where
  target : d.Shows r.target l.target
  location : l.location = r.location
  kind : l.kind = r.kind
  scope : Option.Rel d.Shows r.scope l.scope

structure ShowsParameter (d : Directory) (p : Parameter) (l : LinkedParameter) : Prop where
  owner : d.answer p.owner = some l.owner
  parameter : d.Shows p.key l.parameter
  mode : l.mode = p.mode
  ordinal : l.ordinal = p.ordinal

/-- All references of a unit are kept, and of its parameters those whose owner it owns. -/
structure ShowsUnit (d : Directory) (u : CompilationUnit) (l : LinkedUnit) : Prop where
  unit : l.unit = u
  declarations : List.Forall₂ (fun decl row => d.answer decl.key = some row.1 ∧ row.2 = decl) u.owned l.declarations
  references : List.Forall₂ d.ShowsReference u.references l.references
  parameters : List.Forall₂ d.ShowsParameter u.ownParameters l.parameters
  unresolved : l.unresolved = u.references.countP (fun r => (d.answer r.target).isNone) +
    u.ownParameters.countP fun p => (d.answer p.key).isNone

theorem link_shows (d : Directory) (key : EntityKey) : d.Shows key (d.link key) := by
  rw [link]
  cases h : d.answer key with
  | some id => exact ⟨h.symm, by rw [h]; rfl⟩
  | none => exact ⟨h.symm, by rw [h]; rfl⟩

theorem reference_shows (d : Directory) (r : Reference) : d.ShowsReference r (d.reference r) where
  target := d.link_shows r.target
  location := rfl
  kind := rfl
  scope := by
    rw [reference]
    cases r.scope with
    | none => exact .none
    | some key => exact .some (d.link_shows key)

theorem answer_registered {d : Directory} {key : EntityKey} (h : key ∈ d.registered.map (·.1)) :
    d.answer key = some ((ownId d.registered key).getD 0) := by
  obtain ⟨id, hid⟩ := Option.isSome_iff_exists.1 (KeyTable.ownId_isSome h)
  rw [answer, hid, Option.some_or, Option.getD_some]

theorem unresolved_unit (d : Directory) (u : CompilationUnit) :
    (d.unit u).unresolved = u.references.countP (fun r => (d.answer r.target).isNone) +
      u.ownParameters.countP fun p => (d.answer p.key).isNone := by
  have hnone (key : EntityKey) : (d.link key).id?.isNone = (d.answer key).isNone := by
    rw [(d.link_shows key).id]
  simp only [LinkedUnit.unresolved, unit, ← List.countP_eq_length_filter, List.countP_map, Function.comp_def,
    reference, parameter, hnone]

/-- Where everything owned is registered, a unit is linked as it is said. -/
theorem unit_shows {d : Directory} {u : CompilationUnit}
    (h : ∀ decl ∈ u.owned, decl.key ∈ d.registered.map (·.1)) : d.ShowsUnit u (d.unit u) where
  unit := rfl
  declarations := List.forall₂_map_right_iff.2 <| List.forall₂_same.2 fun decl hdecl =>
    ⟨answer_registered (h decl hdecl), rfl⟩
  references := List.forall₂_map_right_iff.2 <| List.forall₂_same.2 fun r _ => d.reference_shows r
  parameters := by
    refine List.forall₂_map_right_iff.2 <| List.forall₂_same.2 fun p hp => ?_
    obtain ⟨decl, hdecl, hkey⟩ := List.any_eq_true.1 (List.mem_filter.1 hp).2
    have howner : p.owner = decl.key := (of_decide_eq_true hkey).symm
    exact ⟨answer_registered (howner ▸ h decl hdecl), d.link_shows p.key, rfl, rfl⟩
  unresolved := d.unresolved_unit u

end Directory

/-- **Linking a batch registers all owned declarations in order, asks once about each key that comes up
and that the batch says nothing about, and links every unit as the registrations and the answers say.** -/
theorem linkBatch_eq {m : Type → Type} [Monad m] [LawfulMonad m] (reg : Declaration → m Int)
    (outside : Option (EntityKey → Option Int)) (note : EntityKey → m PUnit) (units : List CompilationUnit) :
    let owned := units.flatMap (·.owned)
    let directory (ids : List Int) : Directory := ⟨(owned.map (·.key)).zip ids, outside⟩
    linkBatch reg (outside.map fun f key => do note key; pure (f key)) units = (do
        let ids ← owned.mapM reg
        forM ((directory ids).asked units) note
        pure (units.map (directory ids).unit)) ∧
      ∀ ids, ids.length = owned.length →
        ((directory ids).asked units).Nodup ∧
        (∀ key ∈ (directory ids).asked units, Directory.ownId (directory ids).registered key = none) ∧
        List.Forall₂ (directory ids).ShowsUnit units (units.map (directory ids).unit) := by
  intro owned directory
  constructor
  · have hlink (ids : List Int) :
        (units.mapM (linkUnit (KeyTable.ofList (directory ids).registered) ((directory ids).ask note))).run' [] = (do
          forM ((directory ids).asked units) note
          pure (units.map (directory ids).unit)) := by
      have hunit (u : CompilationUnit) := (Directory.unit_yields u : (directory ids).Yields note _ _ _)
      have h := Directory.Yields.mapM hunit units []
      have hfresh : (directory ids).fresh [] (units.flatMap (·.usedKeys)) = (directory ids).asked units := by
        rw [Directory.fresh, Directory.asked, List.filter_nil, List.removeAll]
        simp
      rw [hfresh] at h
      change Prod.fst <$> (units.mapM (linkUnit _ _)) [] = _
      rw [show ([] : Memo) = (directory ids).memo [] from rfl, h]
      simp only [map_bind, map_pure]
    rw [linkBatch, register_eq, bind_assoc]
    simp only [pure_bind]
    exact bind_congr hlink
  · intro ids hlength
    have hregistered : (directory ids).registered.map (·.1) = owned.map (·.key) :=
      List.map_fst_zip (by simp [hlength])
    refine ⟨nodup_eraseDups _, fun key hkey => ?_, ?_⟩
    · have hasks := (List.mem_filter.1 (List.mem_eraseDups.1 hkey)).2
      rw [Directory.asks, Bool.and_eq_true] at hasks
      exact Option.isNone_iff_eq_none.1 hasks.1
    · refine List.forall₂_map_right_iff.2 <| List.forall₂_same.2 fun u hu => Directory.unit_shows fun decl hdecl => ?_
      rw [hregistered]
      exact List.mem_map_of_mem (List.mem_flatMap.2 ⟨u, hu, hdecl⟩)

/-! A key registered twice, with another key at its place between. -/

namespace Reregistered

def old : EntityKey := ⟨"Old", "a.ads", 1, 1⟩

def new : EntityKey := ⟨"New", "a.ads", 1, 1⟩

def far : EntityKey := ⟨"Far", "b.ads", 1, 1⟩

def gone : EntityKey := ⟨"Gone", "b.ads", 2, 1⟩

def use (target : EntityKey) (scope : Option EntityKey) : Reference :=
  ⟨target, ⟨"a.adb", 1, 1⟩, .read, scope⟩

def unit (owned : List EntityKey) (references : List Reference) (parameters : List Parameter) : CompilationUnit :=
  ⟨"a.ada", "a", "", "", [], [], owned.map fun key => ⟨key, "", true, true⟩, references, parameters⟩

def units : List CompilationUnit :=
  [unit [old, new] [use old.location.key (some far)] [⟨new, gone, .input, 1⟩, ⟨far, gone, .input, 2⟩],
    unit [old] [use far none, use gone (some gone)] []]

/-- Every registration and every question leaves its key behind; ids count the registrations. -/
def registering (d : Declaration) : StateM (List EntityKey) Int := do
  let seen ← get
  set (seen ++ [d.key])
  pure seen.length

def asking (key : EntityKey) : StateM (List EntityKey) PUnit :=
  modify (· ++ [key])

def known (key : EntityKey) : Option Int :=
  if key = far then some 9 else none

theorem linkBatch_eq_units :
    let out := (linkBatch registering (some fun key => do asking key; pure (known key)) units).run []
    (out.2 = [old, new, old, far, gone] ∧
        out.1.map (fun l => l.references.map (·.target)) = [[.linked 2], [.linked 9, .pending gone]] ∧
        out.1.map (·.parameters) = [[⟨1, .pending gone, .input, 1⟩], []]) ∧
      ([0, 1, 2] : List Int).length = (units.flatMap (·.owned)).length ∧
      (Directory.asked ⟨[(old, 0), (new, 1), (old, 2)], some known⟩ units).Nodup := by
  obtain ⟨heq, hrows⟩ := linkBatch_eq registering (some known) asking units
  rw [Option.map_some] at heq
  rw [heq]
  exact ⟨by decide +kernel, by decide +kernel, (hrows [0, 1, 2] (by decide +kernel)).1⟩

end Reregistered

end Crossref
