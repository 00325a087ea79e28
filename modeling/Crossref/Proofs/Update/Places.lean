/-
Parameters that are known by their place. The row of such a parameter is the link to
the first key at the place that was seen since right before the merge that gave it.
It keeps to this key when the entity goes and another one takes the place: so it is
resolved exactly if the first entity that was seen there is still there, or none is.
-/
import Crossref.Proofs.Update.Binding
import Crossref.Proofs.Update.Parameters

namespace Crossref

/-! ## Resolved links -/

namespace Contents

/-- An entity is at the place. -/
def Occupied (c : Contents) (place : Location) : Prop :=
  ∃ k, c.Knows k ∧ k.location = place

/-- The link leads to an entity at the place if one is there, and is pending if none is. -/
structure ResolvesAt (c : Contents) (place : Location) (l : StoredLink) : Prop where
  linked : c.Occupied place →
    ∃ id k, l.id = some id ∧ c.names.key? id = some k ∧ k.location = place
  pending : ¬c.Occupied place → l.id = none

variable {c : Contents}

/-- The link to a key is resolved if the key is there whenever its place is taken. -/
theorem Sound.resolvesAt_linkTo (h : c.Sound) (k : EntityKey) :
    c.ResolvesAt k.location (c.linkTo k) ↔ (c.Occupied k.location → c.Knows k) := by
  constructor
  · intro hl hplace
    obtain ⟨id, -, hid, -, -⟩ := hl.linked hplace
    rw [linkTo_id, h.entityId?_eq_some] at hid
    exact h.knows_iff.2 ⟨id, hid⟩
  · intro hthere
    refine ⟨fun hplace => ?_, fun hfree => ?_⟩
    · obtain ⟨id, hid⟩ := h.knows_iff.1 (hthere hplace)
      exact ⟨id, k, (linkTo_id c k).trans (h.entityId?_eq_some.2 hid), hid, rfl⟩
    · rw [linkTo_id, h.entityId?_eq_none]
      exact fun hk => hfree ⟨k, hk, rfl⟩

end Contents

/-! ## One origin -/

/-- A list is split in one way at the last element with a property. -/
theorem split_last_unique {α : Type} {P : α → Prop} {before before' after after' : List α} {a a' : α}
    (h : before ++ a :: after = before' ++ a' :: after') (ha : P a) (ha' : P a')
    (hafter : ∀ b ∈ after, ¬P b) (hafter' : ∀ b ∈ after', ¬P b) :
    before = before' ∧ a = a' ∧ after = after' := by
  rcases List.append_eq_append_iff.1 h with ⟨between, rfl, hrest⟩ | ⟨between, rfl, hrest⟩
  · cases between with
    | nil => simpa using hrest
    | cons b between =>
      obtain ⟨rfl, rfl⟩ := List.cons.inj hrest
      exact absurd ha' (hafter a' (by simp))
  · cases between with
    | nil => simpa [eq_comm] using hrest
    | cons b between =>
      obtain ⟨rfl, rfl⟩ := List.cons.inj hrest
      exact absurd ha (hafter' a (by simp))

section
variable {batches before after before' after' : List ReadBatch} {artifact : String} {owner : EntityKey}
  {ordinal : Int} {b b' : ReadBatch} {u u' : CompilationUnit} {p p' : Parameter}

theorem Origin.unique (hread : ∀ b ∈ batches, ∃ t, b.ReadFrom t)
    (h : Origin batches artifact owner ordinal before b after u p)
    (h' : Origin batches artifact owner ordinal before' b' after' u' p') :
    before = before' ∧ b = b' ∧ after = after' ∧ u = u' ∧ p = p' := by
  obtain ⟨rfl, rfl, rfl⟩ := split_last_unique (P := fun b => artifact ∈ b.paths)
    (h.split.symm.trans h'.split) (b.mem_paths_of_merged h.merged) (b'.mem_paths_of_merged h'.merged)
    h.stands h'.stands
  obtain ⟨t, ht⟩ := hread b (by simp [h.split])
  obtain rfl := ht.unit_eq h.merged h'.merged
  exact ⟨rfl, rfl, rfl, rfl, h.last.unique h'.last⟩

end

/-! ## The law of places -/

namespace History

/-- The entities after a history, in the order of their ids, are the keys that its batches lead to. -/
theorem entities_known (path : String) (steps : List UpdateStep) :
    let h := run path steps
    h.store.contents.entities.map h.store.contents.keyOf? = (knownKeys h.batches).map some := by
  intro h
  obtain ⟨L, hL, hb⟩ := run_binds path steps
  rw [← hL.known]
  refine List.forall₂_eq_eq_eq ▸ List.forall₂_map_left_iff.2 (List.forall₂_map_right_iff.2 ?_)
  exact hb.keys.imp fun _ _ hk => hk.1

/-- Each row of a parameter has an origin, and is the link to what the key is bound to there. -/
theorem row_origin (path : String) (steps : List UpdateStep) :
    let h := run path steps
    let c := h.store.contents
    ∀ r ∈ c.parameters, ∃ artifact owner before b after u p, c.filePath? r.artifactId = some artifact ∧
      c.names.key? r.ownerId = some owner ∧
      Origin h.batches artifact owner r.ordinal before b after u p ∧
      r.parameter = c.linkTo (p.key.among (candidates before b after)) := by
  intro h c r hr
  have hs : h.Sound := run_sound path steps
  obtain ⟨L, hL, hb⟩ := run_binds path steps
  have hrows := forall₂_and hb.rows (hb.reads (hL.keys_named hs.named))
  obtain ⟨f, hf, hreads, hkey⟩ := exists_right_of_forall₂ hrows hr
  obtain ⟨before, b, after, u, p, horigin, hbound⟩ := hL.origin hs.named f hf
  rw [← hreads.ordinal] at horigin
  exact ⟨f.artifact, f.owner, before, b, after, u, p, hreads.artifact, hreads.owner, horigin,
    hbound ▸ hb.sound.eq_linkTo_of_reads hkey (hs.settled.parameters r hr)⟩

/-- **A parameter goes by the first key that was seen at its place, and stays with it.** Each row has
one origin, and is the link to what the key of the parameter is bound to there. So it is resolved by
the place exactly if the place is free or the key that it goes by is still there. -/
theorem parameters_by_place (path : String) (steps : List UpdateStep) :
    let h := run path steps
    let c := h.store.contents
    c.entities.map c.keyOf? = (knownKeys h.batches).map some ∧
      ∀ r ∈ c.parameters, ∃ artifact owner, c.filePath? r.artifactId = some artifact ∧
        c.names.key? r.ownerId = some owner ∧
        (∃ before b after u p, Origin h.batches artifact owner r.ordinal before b after u p) ∧
        ∀ before b after u p, Origin h.batches artifact owner r.ordinal before b after u p →
          r.parameter = c.linkTo (p.key.among (candidates before b after)) ∧
            (c.ResolvesAt p.key.location r.parameter ↔
              (c.Occupied p.key.location → c.Knows (p.key.among (candidates before b after)))) := by
  intro h c
  refine ⟨entities_known path steps, fun r hr => ?_⟩
  have hsound : c.Sound := (run_binds path steps).choose_spec.2.sound
  obtain ⟨artifact, owner, before, b, after, u, p, hartifact, howner, horigin, hlink⟩ :=
    row_origin path steps r hr
  refine ⟨artifact, owner, hartifact, howner, ⟨before, b, after, u, p, horigin⟩, ?_⟩
  intro before' b' after' u' p' horigin'
  obtain ⟨rfl, rfl, rfl, rfl, rfl⟩ := horigin.unique (batches_readFrom path steps) horigin'
  have hresolves := hsound.resolvesAt_linkTo (p.key.among (candidates before b after))
  rw [EntityKey.location_among, ← hlink] at hresolves
  exact ⟨hlink, hresolves⟩

end History

/-! ## A place that is taken over -/

namespace TakenOver

/-- Declares an entity with the name at the first line of its file. -/
def declaring (name : String) : String :=
  "V \"1\"\nU v%b v.adb 00000000\nD v.adb 20240101000000 00000000\nX 1 v.adb\n1V1*" ++ name ++ "\n"

/-- Declares `P` with a parameter that is at the first line of the other file. -/
def caller : String :=
  "V \"1\"\nU w%b w.adb 00000000\nD w.adb 20240101000000 00000000\nD v.adb 20240101000000 00000000\n" ++
    "X 1 w.adb\n5V1*P 2|1>1\n"

/-- `F` is at the place when the parameter is linked; then `G` takes the place. -/
def steps : List UpdateStep :=
  [Leftover.step 1 [("a.ali", declaring "F")], Leftover.step 2 [("b.ali", caller)],
    Leftover.step 3 [("a.ali", declaring "G")]]

def place : EntityKey :=
  ⟨"", "v.adb", 1, 1⟩

def contents : Contents :=
  (History.run "s" steps).store.contents

/-- The unit that counts gives the parameter by the place, and `G` is there, but the parameter is
pending. -/
theorem taken_not_resolved :
    ∃ r ∈ contents.parameters,
      (∃ q ∈ (History.run "s" steps).current, contents.filePath? r.artifactId = some q.1 ∧
        ∃ p ∈ q.2.ownParameters, contents.names.key? r.ownerId = some p.owner ∧ p.ordinal = r.ordinal ∧
          p.key = place) ∧
        contents.Occupied place.location ∧ ¬contents.ResolvesAt place.location r.parameter := by
  have hthere : contents.Knows ⟨"G", "v.adb", 1, 1⟩ := by decide +kernel
  have hrow : ∃ r ∈ contents.parameters,
      (∃ q ∈ (History.run "s" steps).current, contents.filePath? r.artifactId = some q.1 ∧
        ∃ p ∈ q.2.ownParameters, contents.names.key? r.ownerId = some p.owner ∧ p.ordinal = r.ordinal ∧
          p.key = place) ∧ r.parameter.id = none := by
    decide +kernel
  obtain ⟨r, hr, hgiven, hpending⟩ := hrow
  refine ⟨r, hr, hgiven, ⟨_, hthere, rfl⟩, fun hresolves => ?_⟩
  obtain ⟨id, -, hid, -⟩ := hresolves.linked ⟨_, hthere, rfl⟩
  rw [hpending] at hid
  cases hid

/-- The parameter goes by `F`, which was there first. -/
theorem goes_by_first :
    ∃ r ∈ contents.parameters, r.parameter = contents.linkTo ⟨"F", "v.adb", 1, 1⟩ ∧
      ∃ before b after u p,
        Origin (History.run "s" steps).batches "/t/b.ali" ⟨"P", "w.adb", 5, 1⟩ r.ordinal before b after u
          p ∧
        r.parameter = contents.linkTo (p.key.among (candidates before b after)) ∧
        (contents.ResolvesAt p.key.location r.parameter ↔ (contents.Occupied p.key.location →
          contents.Knows (p.key.among (candidates before b after)))) := by
  have hrow : ∃ r ∈ contents.parameters, contents.filePath? r.artifactId = some "/t/b.ali" ∧
      contents.names.key? r.ownerId = some ⟨"P", "w.adb", 5, 1⟩ ∧
      r.parameter = contents.linkTo ⟨"F", "v.adb", 1, 1⟩ := by
    decide +kernel
  obtain ⟨r, hr, hartifact, howner, hlink⟩ := hrow
  obtain ⟨_, _, hartifact', howner', ⟨before, b, after, u, p, horigin⟩, hlaw⟩ :=
    (History.parameters_by_place "s" steps).2 r hr
  obtain rfl := Option.some.inj (hartifact.symm.trans hartifact')
  obtain rfl := Option.some.inj (howner.symm.trans howner')
  exact ⟨r, hr, hlink, before, b, after, u, p, horigin, hlaw before b after u p horigin⟩

end TakenOver

end Crossref
