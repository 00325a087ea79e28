/-
Each value once, in the order of the first occurrences, and tables that give some
values what a function gives them.
-/
import Mathlib.Data.List.Basic
import Mathlib.Data.List.Induction

namespace Crossref

variable {α : Type} [DecidableEq α]

theorem eraseDups_snoc (l : List α) (a : α) :
    (l ++ [a]).eraseDups = if a ∈ l then l.eraseDups else l.eraseDups ++ [a] := by
  rw [List.eraseDups_append, List.removeAll]
  by_cases ha : a ∈ l <;> simp [ha, List.eraseDups_cons]

theorem nodup_eraseDups (l : List α) : l.eraseDups.Nodup := by
  induction l using List.reverseRecOn with
  | nil => exact List.nodup_nil
  | append_singleton l a ih =>
    rw [eraseDups_snoc]
    split
    · exact ih
    next hnew =>
      refine List.nodup_append.2 ⟨ih, by simp, fun b hb a' ha' heq => hnew ?_⟩
      rw [← List.mem_singleton.1 ha', ← heq]
      exact List.mem_eraseDups.1 hb

theorem find?_eraseDups (p : α → Bool) (l : List α) : l.eraseDups.find? p = l.find? p := by
  induction l using List.reverseRecOn with
  | nil => rfl
  | append_singleton l a ih =>
    rw [eraseDups_snoc, List.find?_append]
    split
    next hold =>
      -- a repeated value is found, if at all, where it came first
      rw [ih]
      cases hfound : l.find? p with
      | some b => rfl
      | none => simp [List.find?_eq_none.1 hfound a hold]
    · rw [List.find?_append, ih]

theorem lookup_map {β : Type} (f : α → β) (l : List α) (a : α) :
    (l.map fun b => (b, f b)).lookup a = if a ∈ l then some (f a) else none := by
  split
  next hmem => exact List.lookup_graph f hmem
  next hnot =>
    rw [List.lookup_eq_none_iff]
    intro e he
    obtain ⟨b, hb, rfl⟩ := List.mem_map.1 he
    exact bne_iff_ne.2 fun heq => hnot (heq ▸ hb)

end Crossref
