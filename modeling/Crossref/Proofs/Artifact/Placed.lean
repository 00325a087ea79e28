/-
Where declarations stand. The file of a declaration is that of the section it stands
in, and sections are entered under a path in the form the index stores; its line and
its column are written in digits. So the place of a declaration is never one that a
question leaves open, and asking for it needs no rewriting.
-/
import Crossref.Proofs.Artifact.Named

namespace Crossref

theorem slashed_slashed (path : String) : slashed (slashed path) = slashed path := by
  unfold slashed
  rw [String.toList_ofList, List.map_map]
  congr 1
  refine List.map_congr_left fun c _ => ?_
  by_cases hc : c = '\\' <;> simp [hc]

/-- The file has the form that the index stores, and line and column are there. -/
structure EntityKey.Placed (k : EntityKey) : Prop where
  file : slashed k.file = k.file
  line : 0 ≤ k.line
  column : 0 ≤ k.column

def CompilationUnit.Placed (u : CompilationUnit) : Prop :=
  ∀ d ∈ u.declarations, d.key.Placed

namespace Artifact

structure Draft.Placed (d : Draft) : Prop where
  entered : ∀ file ∈ d.sectionFile, slashed file = file
  declared : ∀ e ∈ d.declared, e.key.Placed

theorem Draft.invariant_placed : Draft.Invariant Draft.Placed where
  version h _ := { h with }
  unit h _ _ := { h with }
  depend h _ _ _ _ _ _ := { h with }
  enter h _ _ file _ := by
    refine { h with entered := ?_ }
    intro _ hfile
    cases hfile
    exact slashed_slashed file
  declare h new _ hfile hline hcolumn := by
    refine { h with declared := ?_ }
    intro e he
    rcases Draft.mem_declare he with rfl | he
    · exact ⟨h.entered _ hfile, hline, hcolumn⟩
    · exact h.declared e he
  move h _ _ := { h with }
  use h _ _ _ _ := { h with }
  pass h _ _ _ _ := { h with }

theorem Draft.Placed.toUnit {d : Draft} (h : d.Placed) : d.toUnit.Placed := by
  intro e he
  obtain ⟨new, hnew, rfl⟩ := List.mem_map.1 he
  exact h.declared new hnew

/-- **Every declaration of a unit that is read has a place that can be asked for.** -/
theorem readBytes_placed {path : String} {content : Text.Bytes} {u : CompilationUnit}
    (h : readBytes path content = .ok u) : u.Placed := by
  unfold readBytes at h
  split at h
  · exact absurd h (by simp)
  · have hfirst : ({ path, checksum := Digest.checksum content } : Draft).Placed := ⟨by simp, by simp⟩
    obtain ⟨d, hd, rfl⟩ := Draft.invariant_placed.readLines hfirst h
    exact hd.toUnit

end Artifact

end Crossref
