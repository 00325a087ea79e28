/-
Searching for entities. A file that is asked for matches a stored one if the
segments of the one path are the last segments of the other. What matches comes
by path, line, column and id, so the first answer is the least of all that match.
-/
import Crossref.Proofs.Update.References

namespace Crossref

/-! ## Segments -/

theorem splitSlashes_ne_nil (s : List Char) : splitSlashes s ≠ [] := by
  cases s with
  | nil => simp [splitSlashes]
  | cons c s =>
    unfold splitSlashes
    split
    · simp
    · split <;> simp

theorem splitSlashes_slash (s : List Char) : splitSlashes ('/' :: s) = [] :: splitSlashes s := rfl

theorem splitSlashes_cons {c : Char} (hc : c ≠ '/') {s first : List Char} {rest : List (List Char)}
    (h : splitSlashes s = first :: rest) : splitSlashes (c :: s) = (c :: first) :: rest := by
  rw [splitSlashes, if_neg hc, h]

/-- The segments with slashes between them are the path again. -/
theorem intercalate_splitSlashes (s : List Char) : ['/'].intercalate (splitSlashes s) = s := by
  induction s with
  | nil => rfl
  | cons c s ih =>
    obtain ⟨first, rest, hs⟩ := List.exists_cons_of_ne_nil (splitSlashes_ne_nil s)
    by_cases hc : c = '/'
    · rw [hc, splitSlashes_slash, hs, List.intercalate_cons_cons, ← hs, ih]
      rfl
    · rw [splitSlashes_cons hc hs]
      rw [hs] at ih
      cases rest with
      | nil => simpa using ih
      | cons second rest =>
        rw [List.intercalate_cons_cons] at ih ⊢
        simpa using ih

theorem splitSlashes_inj {s t : List Char} : splitSlashes s = splitSlashes t ↔ s = t := by
  constructor
  · intro h
    rw [← intercalate_splitSlashes s, h, intercalate_splitSlashes]
  · rintro rfl
    rfl

/-- The last segments of a path are those of the path itself or of what follows a slash in it. -/
theorem splitSlashes_suffix_iff {file : List Char} : ∀ {path : List Char},
    splitSlashes file <:+ splitSlashes path ↔ file = path ∨ '/' :: file <:+ path
  | [] => by
    have hnil : splitSlashes [] = [[]] := rfl
    constructor
    · intro h
      rw [hnil, List.suffix_cons_iff] at h
      rcases h with h | h
      · exact .inl (splitSlashes_inj.1 (h.trans hnil.symm))
      · exact absurd (List.suffix_nil.1 h) (splitSlashes_ne_nil file)
    · intro h
      rcases h with rfl | h
      · exact List.suffix_refl _
      · exact absurd (List.suffix_nil.1 h) (by simp)
  | c :: path => by
    have ih : splitSlashes file <:+ splitSlashes path ↔ file = path ∨ '/' :: file <:+ path :=
      splitSlashes_suffix_iff
    by_cases hc : c = '/'
    · subst hc
      have hslash : '/' :: file = '/' :: path ↔ file = path := by simp
      rw [splitSlashes_slash, List.suffix_cons_iff, ih, ← splitSlashes_slash, splitSlashes_inj,
        List.suffix_cons_iff, hslash]
    · obtain ⟨first, rest, hpath⟩ := List.exists_cons_of_ne_nil (splitSlashes_ne_nil path)
      rw [hpath, List.suffix_cons_iff, ← hpath, splitSlashes_inj] at ih
      have hrest : splitSlashes file <:+ rest ↔ '/' :: file <:+ path := by
        constructor
        · intro h
          refine (ih.1 (.inr h)).resolve_left fun heq => ?_
          have := h.length_le
          rw [heq, hpath, List.length_cons] at this
          omega
        · intro h
          refine (ih.2 (.inr h)).resolve_left fun heq => ?_
          have := h.length_le
          rw [heq, List.length_cons] at this
          omega
      have hne : '/' :: file ≠ c :: path := fun heq => hc (List.cons.inj heq).1.symm
      rw [splitSlashes_cons hc hpath, List.suffix_cons_iff, ← splitSlashes_cons hc hpath,
        splitSlashes_inj, hrest, List.suffix_cons_iff, or_iff_right hne]

theorem segments_suffix_iff {file path : String} :
    segments file <:+ segments path ↔ splitSlashes file.toList <:+ splitSlashes path.toList := by
  have hchars (s : String) : (segments s).map String.toList = splitSlashes s.toList := by
    simp [segments, Function.comp_def]
  constructor
  · intro h
    rw [← hchars, ← hchars]
    exact h.map String.toList
  · intro h
    exact h.map String.ofList

/-! ## Files that match -/

/-- The path has no null character, so that functions of SQL see all of it. -/
def Plain (path : String) : Prop :=
  Char.ofNat 0 ∉ path.toList

namespace Sql

theorem visible_of_plain {text : String} (h : Plain text) : visible text = text.toList := by
  refine List.takeWhile_eq_self_iff.2 fun c hc => ?_
  exact decide_eq_true fun heq => h (heq ▸ hc)

/-- What is seen of a text has no null character. -/
theorem plain_of_mem {path file : String} (h : ∀ c ∈ file.toList, c ∈ visible path) : Plain file := by
  intro hnull
  have hseen := List.mem_takeWhile_imp (h _ hnull)
  exact of_decide_eq_true hseen rfl

/-- Counted backwards from the end, a part is the end of the text that is as long, or the whole text. -/
theorem substr_neg (text : String) (n : Nat) :
    (substr text (-(n + 1 : Int))).toList = (visible text).drop ((visible text).length - (n + 1)) := by
  have hneg : -(n + 1 : Int) < 0 := by omega
  have hskip : ((length text : Int) + -(n + 1 : Int)).toNat = (visible text).length - (n + 1) := by
    unfold length
    omega
  rw [substr, String.toList_ofList, skipped, if_pos hneg, hskip]

end Sql

/-- **The expression of SQL says that what is seen of the path ends with a slash and the file.** A path that is
shorter, an empty one and a file with a null character in it are no exceptions. -/
theorem endsWithSegments_iff_suffix {path file : String} :
    endsWithSegments path file = true ↔ '/' :: file.toList <:+ Sql.visible path := by
  have hjoined : ("/" ++ file).toList = '/' :: file.toList := by
    rw [String.toList_append]
    rfl
  rw [endsWithSegments, decide_eq_true_eq, ← String.toList_inj, Sql.substr_neg, hjoined]
  constructor
  · intro h
    rw [← h]
    exact List.drop_suffix _ _
  · rintro ⟨before, h⟩
    have hplain : Plain file := by
      have hseen : ∀ c ∈ file.toList, c ∈ Sql.visible path := fun c hc => by
        rw [← h]
        simp [hc]
      exact Sql.plain_of_mem hseen
    have hlength : (Sql.visible path).length - (Sql.length file + 1) = before.length := by
      rw [Sql.length, Sql.visible_of_plain hplain, ← h]
      simp
    rw [hlength, ← h, List.drop_left]

theorem endsWithSegments_iff {path file : String} (h : Plain path) :
    path = file ∨ endsWithSegments path file = true ↔ segments file <:+ segments path := by
  rw [endsWithSegments_iff_suffix, Sql.visible_of_plain h, segments_suffix_iff, splitSlashes_suffix_iff,
    String.toList_inj, eq_comm]

/-- **A stored path matches if it ends with the segments of the asked one, or the other way
round.** -/
theorem matchesFile_iff {path file : String} (hpath : Plain path) (hfile : Plain file) :
    matchesFile path file = true ↔
      segments file <:+ segments path ∨ segments path <:+ segments file := by
  rw [matchesFile, Bool.or_eq_true, Bool.or_eq_true, decide_eq_true_eq, ← endsWithSegments_iff hpath,
    ← endsWithSegments_iff hfile, eq_comm (a := file)]
  tauto

theorem matchesFile_self (path : String) : matchesFile path path = true := by
  simp [matchesFile]

/-! ## The order of the answers -/

theorem Location.le_antisymm {l m : Location} (h₁ : l.le m = true) (h₂ : m.le l = true) : l = m := by
  rw [Location.le_iff] at h₁ h₂
  obtain ⟨file, line, column⟩ := l
  obtain ⟨file', line', column'⟩ := m
  dsimp only at h₁ h₂
  rcases h₁ with h₁ | ⟨rfl, h₁⟩
  · rcases h₂ with h₂ | ⟨rfl, -⟩
    · exact absurd h₁ (lt_asymm h₂)
    · exact absurd h₁ (lt_irrefl _)
  · have h₂ := h₂.resolve_left (lt_irrefl _)
    rw [Location.mk.injEq]
    exact ⟨rfl, by omega, by omega⟩

namespace EntityInfo

theorem le_iff {d e : EntityInfo} :
    d.le e = true ↔ (d.location = e.location ∧ d.id ≤ e.id) ∨
      (d.location ≠ e.location ∧ d.location.le e.location = true) := by
  unfold EntityInfo.le
  by_cases h : d.location = e.location <;> simp [h]

theorem location_le {d e : EntityInfo} (h : d.le e = true) : d.location.le e.location = true := by
  rcases le_iff.1 h with ⟨hloc, -⟩ | ⟨-, h⟩
  · rw [hloc]
    exact (Bool.or_self _).symm.trans (e.location.le_total e.location)
  · exact h

theorem le_trans {d e f : EntityInfo} (h₁ : d.le e = true) (h₂ : e.le f = true) : d.le f = true := by
  have hle := Location.le_trans (location_le h₁) (location_le h₂)
  rw [le_iff]
  by_cases hdf : d.location = f.location
  · -- all three stand at one place, so that the ids decide
    have hde : d.location = e.location :=
      Location.le_antisymm (location_le h₁) (hdf ▸ location_le h₂)
    have hid₁ := ((le_iff.1 h₁).resolve_right fun h => h.1 hde).2
    have hid₂ := ((le_iff.1 h₂).resolve_right fun h => h.1 (hde.symm.trans hdf)).2
    exact .inl ⟨hdf, by omega⟩
  · exact .inr ⟨hdf, hle⟩

theorem le_total (d e : EntityInfo) : (d.le e || e.le d) = true := by
  rw [Bool.or_eq_true, le_iff, le_iff]
  by_cases h : d.location = e.location
  · rcases Int.le_total d.id e.id with hid | hid
    · exact .inl (.inl ⟨h, hid⟩)
    · exact .inr (.inl ⟨h.symm, hid⟩)
  · rcases Bool.or_eq_true_iff.1 (d.location.le_total e.location) with hle | hle
    · exact .inl (.inr ⟨h, hle⟩)
    · exact .inr (.inr ⟨Ne.symm h, hle⟩)

/-- The answer that comes first at a line and a column is the one whose path comes first. -/
theorem file_le {d e : EntityInfo} (h : d.le e = true) : d.location.file ≤ e.location.file := by
  rcases Location.le_iff.1 (location_le h) with hlt | ⟨heq, -⟩
  · exact le_of_lt hlt
  · exact le_of_eq heq

end EntityInfo

namespace Contents

variable {c : Contents} {f : EntityFilter} {e : EntityInfo}

/-- **A search finds the entities that it accepts.** -/
theorem mem_entityInfos :
    e ∈ c.entityInfos f ↔ (∃ r ∈ c.entities, c.info? r = some e) ∧ f.accepts e = true := by
  rw [entityInfos, List.mem_mergeSort, List.mem_filter, List.mem_filterMap]

theorem entityInfos_sorted (c : Contents) (f : EntityFilter) :
    (c.entityInfos f).Pairwise fun d e => d.le e = true := by
  have htrans (d e f : EntityInfo) (h₁ : d.le e = true) (h₂ : e.le f = true) : d.le f = true :=
    EntityInfo.le_trans h₁ h₂
  exact List.pairwise_mergeSort htrans EntityInfo.le_total _

/-- The first answer comes before every other. -/
theorem le_of_head?_entityInfos (h : (c.entityInfos f).head? = some e) :
    ∀ d ∈ c.entityInfos f, e.le d = true := by
  obtain ⟨rest, hrest⟩ := List.head?_eq_some_iff.1 h
  have hsorted := c.entityInfos_sorted f
  rw [hrest] at hsorted ⊢
  intro d hd
  rcases List.mem_cons.1 hd with rfl | hd
  · exact (Bool.or_self _).symm.trans (d.le_total d)
  · exact (List.pairwise_cons.1 hsorted).1 d hd

/-- What is known of a row is its key, with kind and id. -/
theorem info?_eq_some {r : EntityRow} :
    c.info? r = some e ↔
      c.keyOf? r = some ⟨e.name, e.location.file, e.location.line, e.location.column⟩ ∧
        e.id = r.id ∧ e.kind = r.kind := by
  obtain ⟨id, name, kind, file, line, column⟩ := e
  simp only [info?, keyOf?, Option.map_eq_some_iff, EntityInfo.mk.injEq, Location.mk.injEq,
    EntityKey.mk.injEq]
  constructor
  · intro h
    obtain ⟨path, hpath, hid, hname, hkind, hfile, hline, hcolumn⟩ := h
    exact ⟨⟨path, hpath, hname, hfile, hline, hcolumn⟩, hid.symm, hkind.symm⟩
  · intro h
    obtain ⟨⟨path, hpath, hname, hfile, hline, hcolumn⟩, hid, hkind⟩ := h
    exact ⟨path, hpath, hid.symm, hname, hkind.symm, hfile, hline, hcolumn⟩

end Contents

end Crossref
