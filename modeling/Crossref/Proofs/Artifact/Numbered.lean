/-
The ordinals of parameters. An entity line numbers the parameters it mentions from
one on, and goes on with the count on its continuation lines; a further line of the
same entity starts to count again. So in a unit that is read the ordinals of an owner
have no gap, however its lines are spread.
-/
import Crossref.Proofs.Artifact.Named

namespace Crossref

/-- The ordinals of an owner start at one and have no gap. -/
def Numbered {α : Type} (owner : α → EntityKey) (ordinal : α → Nat) (l : List α) : Prop :=
  ∀ p ∈ l, 1 ≤ ordinal p ∧
    ∀ i, 1 ≤ i → i ≤ ordinal p → ∃ q ∈ l, owner q = owner p ∧ ordinal q = i

/-- A set of numbers that starts at one and has no gap ends somewhere. -/
theorem Numbered.exists_last {α : Type} {owner : α → EntityKey} {ordinal : α → Nat} {l : List α}
    (h : Numbered owner ordinal l) (k : EntityKey) :
    ∃ n : Nat, ∀ i, (∃ p ∈ l, owner p = k ∧ ordinal p = i) ↔ 1 ≤ i ∧ i ≤ n := by
  let ordinals := (l.filter (owner · = k)).map ordinal
  have hmem (i : Nat) : i ∈ ordinals ↔ ∃ p ∈ l, owner p = k ∧ ordinal p = i := by
    simp only [ordinals, List.mem_map, List.mem_filter, decide_eq_true_eq, and_assoc]
  cases hmax : ordinals.max? with
  | none =>
    have hempty : ordinals = [] := List.max?_eq_none_iff.1 hmax
    refine ⟨0, fun i => ?_⟩
    rw [← hmem, hempty]
    simp
    omega
  | some n =>
    obtain ⟨hn, hle⟩ := List.max?_eq_some_iff.1 hmax
    obtain ⟨last, hlast, rfl, rfl⟩ := (hmem n).1 hn
    refine ⟨ordinal last, fun i => ⟨?_, ?_⟩⟩
    · intro hex
      obtain ⟨p, hp, hk, rfl⟩ := hex
      exact ⟨(h p hp).1, hle _ ((hmem _).2 ⟨p, hp, hk, rfl⟩)⟩
    · intro hi
      exact (h last hlast).2 i hi.1 hi.2

namespace Artifact

structure Draft.Numbered (d : Draft) : Prop where
  /-- The open entity line has said as many parameters as it counts. -/
  counted : ∀ e ∈ d.entity, ∀ i, 1 ≤ i → i ≤ e.parameters →
    ∃ p ∈ d.passed, p.owner = e.key ∧ p.ordinal = i
  passed : Crossref.Numbered Passed.owner Passed.ordinal d.passed

theorem Draft.Numbered.pass {d : Draft} {e : OpenEntity} (h : d.Numbered) (he : d.entity = some e)
    (location : Location) (mode : ParameterMode) :
    ({ d with
      entity := some { e with parameters := e.parameters + 1 }
      passed := d.passed ++ [⟨e.key, location, mode, e.parameters + 1⟩] } : Draft).Numbered := by
  have hcounted (i : Nat) (hi : 1 ≤ i) (hle : i ≤ e.parameters + 1) :
      ∃ p ∈ d.passed ++ [⟨e.key, location, mode, e.parameters + 1⟩], p.owner = e.key ∧ p.ordinal = i := by
    by_cases hlast : i = e.parameters + 1
    · exact ⟨⟨e.key, location, mode, e.parameters + 1⟩, by simp, rfl, hlast.symm⟩
    · obtain ⟨p, hp, hpi⟩ := h.counted e he i hi (by omega)
      exact ⟨p, List.mem_append_left _ hp, hpi⟩
  constructor
  · intro _ hmem
    cases hmem
    exact hcounted
  · intro p hp
    rcases List.mem_append.1 hp with hp | hp
    · refine ⟨(h.passed p hp).1, fun i hi hle => ?_⟩
      obtain ⟨q, hq, hqi⟩ := (h.passed p hp).2 i hi hle
      exact ⟨q, List.mem_append_left _ hq, hqi⟩
    · obtain rfl := List.mem_singleton.1 hp
      exact ⟨by simp, hcounted⟩

theorem Draft.invariant_numbered : Draft.Invariant Draft.Numbered where
  version h _ := { h with }
  unit h _ _ := { h with }
  depend h _ _ _ _ _ _ := { h with }
  enter h _ _ _ _ := { h with counted := by simp }
  declare h new _ _ _ _ := by
    refine { h with counted := ?_ }
    intro _ hmem i hi hle
    cases hmem
    exact absurd (hi.trans hle) (by simp)
  move h _ _ := by
    refine { h with counted := ?_ }
    intro _ hmem
    obtain ⟨e, he, rfl⟩ := Option.map_eq_some_iff.1 hmem
    exact h.counted e he
  use h _ _ _ _ := { h with }
  pass h he location mode _ := h.pass he location mode

theorem Draft.Numbered.toUnit {d : Draft} (h : d.Numbered) :
    Crossref.Numbered Parameter.owner Parameter.ordinal d.toUnit.parameters := by
  intro _ hmem
  obtain ⟨p, hp, rfl⟩ := List.mem_map.1 hmem
  refine ⟨(h.passed p hp).1, fun i hi hle => ?_⟩
  obtain ⟨q, hq, hqi⟩ := (h.passed p hp).2 i hi hle
  exact ⟨_, List.mem_map_of_mem hq, hqi⟩

/-- **The ordinals of each owner in a unit that is read are 1 to n for some n.** -/
theorem readBytes_numbered {path : String} {content : Text.Bytes} {u : CompilationUnit}
    (h : readBytes path content = .ok u) :
    Crossref.Numbered Parameter.owner Parameter.ordinal u.parameters := by
  unfold readBytes at h
  split at h
  · exact absurd h (by simp)
  · have hfirst : ({ path, checksum := Digest.checksum content } : Draft).Numbered :=
      ⟨by simp, by simp [Crossref.Numbered]⟩
    obtain ⟨d, hd, rfl⟩ := Draft.invariant_numbered.readLines hfirst h
    exact hd.toUnit

end Artifact

end Crossref
