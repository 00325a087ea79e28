/-
Searching an index. A search by file finds the entities whose path ends with the
segments of the asked one, or the other way round, each of them once and in one
fixed order. A lookup by name and place answers the first of those that the search
by name and file finds and that stand at the line and in the column: narrowing a
search down leaves the order of what remains.
-/
import Crossref.Proofs.Index.Lookup

namespace Crossref

/-- Slashes for backslashes bring no null character in. -/
theorem Plain.slashed {path : String} (h : Plain path) : Plain (slashed path) := by
  intro hnull
  rw [Crossref.slashed, String.toList_ofList, List.mem_map] at hnull
  obtain ⟨c, hc, hnull⟩ := hnull
  split at hnull
  · exact absurd hnull (by decide)
  · exact h (hnull ▸ hc)

namespace EntityInfo

/-- The order of answers: by path, line, column and id. -/
def Precedes (d e : EntityInfo) : Prop :=
  d.location.file < e.location.file ∨ d.location.file = e.location.file ∧
    (d.location.line < e.location.line ∨ d.location.line = e.location.line ∧
      (d.location.column < e.location.column ∨ d.location.column = e.location.column ∧ d.id < e.id))

instance (d e : EntityInfo) : Decidable (d.Precedes e) := by
  unfold Precedes
  infer_instance

theorem precedes_of_le {d e : EntityInfo} (h : d.le e = true) (hid : d.id ≠ e.id) : d.Precedes e := by
  rcases le_iff.1 h with ⟨hloc, hle⟩ | ⟨hloc, hle⟩
  · have hlt : d.id < e.id := by omega
    exact .inr ⟨congrArg _ hloc, .inr ⟨congrArg _ hloc, .inr ⟨congrArg _ hloc, hlt⟩⟩⟩
  · rcases Location.le_iff.1 hle with hfile | ⟨hfile, hle⟩
    · exact .inl hfile
    · have hne : ¬(d.location.line = e.location.line ∧ d.location.column = e.location.column) := by
        intro hsame
        obtain ⟨hline, hcolumn⟩ := hsame
        apply hloc
        cases hd : d.location
        cases he : e.location
        simp_all
      refine .inr ⟨hfile, ?_⟩
      omega

/-- Only one entity stands at both ends of the order. -/
theorem id_eq_of_le {d e : EntityInfo} (h₁ : d.le e = true) (h₂ : e.le d = true) : d.id = e.id := by
  have hloc : d.location = e.location := Location.le_antisymm (location_le h₁) (location_le h₂)
  have hid₁ := ((le_iff.1 h₁).resolve_right fun h => h.1 hloc).2
  have hid₂ := ((le_iff.1 h₂).resolve_right fun h => h.1 hloc.symm).2
  omega

/-- What a lookup asks of an entity that the search by name and file finds; minus one asks nothing. -/
def StandsAt (line column : Int) (e : EntityInfo) : Bool :=
  (line = -1 || e.location.line = line) && (column = -1 || e.location.column = column)

end EntityInfo

namespace EntityFilter

variable {e : EntityInfo}

/-- A search by file, without a place in it. -/
theorem accepts_file_iff {name kind : Option String} {file : String} (hfile : Plain file)
    (he : Plain e.location.file) :
    ({ name, file := some file, kind } : EntityFilter).accepts e = true ↔
      (∀ n ∈ name, e.name = n) ∧ (∀ k ∈ kind, e.kind = k) ∧
        (segments file <:+ segments e.location.file ∨ segments e.location.file <:+ segments file) := by
  simp only [accepts, Option.all_some, decide_true, Bool.true_or, Bool.and_true, Bool.and_eq_true,
    Option.all_eq_true, decide_eq_true_eq, matchesFile_iff he hfile]
  constructor
  · rintro ⟨⟨hname, hmatch⟩, hkind⟩
    exact ⟨hname, hkind, hmatch⟩
  · rintro ⟨hname, hkind, hmatch⟩
    exact ⟨⟨hname, hmatch⟩, hkind⟩

/-- A search with a place is a search without one, narrowed down. -/
theorem accepts_place (name file : String) (line column : Int) :
    ({ name := some name, file := some file, line, column } : EntityFilter).accepts e =
      (({ name := some name, file := some file } : EntityFilter).accepts e && e.StandsAt line column) := by
  simp [accepts, EntityInfo.StandsAt, Bool.and_assoc]

end EntityFilter

namespace Contents

variable {c : Contents} {f g : EntityFilter}

theorem id_of_info? {r : EntityRow} {e : EntityInfo} (h : c.info? r = some e) : e.id = r.id :=
  (info?_eq_some.1 h).2.1

theorem plain_of_info? (hplain : ∀ f ∈ c.files, Plain f.path) {r : EntityRow} {e : EntityInfo}
    (h : c.info? r = some e) : Plain e.location.file := by
  obtain ⟨hpath, -⟩ := keyOf?_eq_some.1 (info?_eq_some.1 h).1
  obtain ⟨row, hrow, -, hfile⟩ := mem_of_filePath? hpath
  have hrow := hplain row hrow
  rwa [hfile] at hrow

/-- The entities that can be had have the ids of their rows. -/
theorem infos_ids_sublist (c : Contents) :
    ((c.entities.filterMap c.info?).map (·.id)).Sublist (c.entities.map (·.id)) := by
  induction c.entities with
  | nil => exact .slnil
  | cons r rows ih =>
    cases hr : c.info? r with
    | none =>
      rw [List.filterMap_cons_none hr, List.map_cons]
      exact ih.cons _
    | some e =>
      rw [List.filterMap_cons_some hr, List.map_cons, List.map_cons, id_of_info? hr]
      exact ih.cons_cons _

variable (hids : (c.entities.map (·.id)).Nodup)
include hids

theorem infos_ids_nodup : ((c.entities.filterMap c.info?).map (·.id)).Nodup :=
  hids.sublist c.infos_ids_sublist

/-- **Every entity that a search finds is found once.** -/
theorem entityInfos_ids_nodup (f : EntityFilter) : ((c.entityInfos f).map (·.id)).Nodup := by
  have hperm := (List.mergeSort_perm ((c.entities.filterMap c.info?).filter f.accepts) EntityInfo.le).map
    (·.id)
  exact hperm.nodup_iff.2 ((infos_ids_nodup hids).sublist (List.filter_sublist.map _))

/-- **What a search finds comes by path, line, column and id.** -/
theorem entityInfos_precedes (f : EntityFilter) :
    (c.entityInfos f).Pairwise EntityInfo.Precedes := by
  have hne := List.pairwise_map.1 (entityInfos_ids_nodup hids f)
  exact ((c.entityInfos_sorted f).and hne).imp fun h => EntityInfo.precedes_of_le h.1 h.2

/-- **Narrowing a search down leaves the order of what remains.** -/
theorem entityInfos_narrowed {p : EntityInfo → Bool} (hp : ∀ e, g.accepts e = (f.accepts e && p e)) :
    c.entityInfos g = (c.entityInfos f).filter p := by
  let all := c.entities.filterMap c.info?
  have hsame : all.filter g.accepts = (all.filter f.accepts).filter p := by
    rw [List.filter_filter]
    exact List.filter_congr fun e _ => (hp e).trans (Bool.and_comm _ _)
  have hperm : (c.entityInfos g).Perm ((c.entityInfos f).filter p) := by
    refine (List.mergeSort_perm _ _).trans ?_
    rw [hsame]
    exact ((List.mergeSort_perm _ _).filter p).symm
  refine List.Perm.eq_of_pairwise (fun d e hd he hde hed => ?_) (c.entityInfos_sorted g)
    ((c.entityInfos_sorted f).filter p) hperm
  -- two answers that stand at both ends of the order have one id, so they come from one row
  have hmem {e : EntityInfo} {f : EntityFilter} (he : e ∈ c.entityInfos f) : e ∈ all :=
    List.mem_of_mem_filter (List.mem_mergeSort.1 he)
  exact List.inj_on_of_nodup_map (infos_ids_nodup hids) (hmem hd) (hmem (List.mem_of_mem_filter he))
    (EntityInfo.id_eq_of_le hde hed)

end Contents

/-! ## Searches and lookups -/

namespace Index

variable {x : Index} {w : Workspace} {c : Contents}

/-- **A search finds, by path, line, column and id, each entity once that has the name and the
kind and whose path ends with the segments of the asked path or the other way round; a lookup
answers the first of those with the name that stand at the line and in the column.** -/
theorem Asks.search_by_segments (h : x.Asks w c) (hc : c.Complete)
    (hids : (c.entities.map (·.id)).Nodup) (hplain : ∀ f ∈ c.files, Plain f.path) {file : String}
    (hfile : Plain file) :
    (∀ name kind : Option String, ∃ es : List EntityInfo,
      (Index.findings (x.entities name (some (.text file)) kind) w).1 = .ok (es.map .entity) ∧
      (∀ e, e ∈ es ↔ (∃ r ∈ c.entities, c.info? r = some e) ∧ (∀ n ∈ name, e.name = n) ∧
        (∀ k ∈ kind, e.kind = k) ∧
        (segments (slashed file) <:+ segments e.location.file ∨
          segments e.location.file <:+ segments (slashed file))) ∧
      (es.map (·.id)).Nodup ∧ es.Pairwise EntityInfo.Precedes) ∧
    ∀ (name : String) (line column : Int), fitsWord line = true → fitsWord column = true →
      ∃ es : List EntityInfo,
        (Index.findings (x.entities (some name) (some (.text file)) none) w).1 =
          .ok (es.map .entity) ∧
        (x.entity? name (.text file) line column w).1 =
          .ok ((es.find? (EntityInfo.StandsAt line column)).map (·.id)) := by
  refine ⟨fun name kind => ?_, fun name line column hline hcolumn => ?_⟩
  · refine ⟨_, h.entities_apply hc _ _ _, fun e => ?_, Contents.entityInfos_ids_nodup hids _,
      Contents.entityInfos_precedes hids _⟩
    rw [Contents.mem_entityInfos]
    refine and_congr_right fun hrow => ?_
    obtain ⟨r, _, hinfo⟩ := hrow
    exact EntityFilter.accepts_file_iff hfile.slashed (Contents.plain_of_info? hplain hinfo)
  · let file' : FileArgument := .text file
    have hnarrowed := Contents.entityInfos_narrowed hids fun e =>
      EntityFilter.accepts_place (e := e) name file'.searched line column
    refine ⟨_, h.entities_apply hc _ _ _, ?_⟩
    rw [h.entity?_apply hc (Store.filterNumbers_fit hline hcolumn), hnarrowed, List.head?_filter]
    rfl

end Index

namespace Shadowed

theorem ids_nodup : (contents.entities.map (·.id)).Nodup := by
  decide +kernel

theorem plain_files : ∀ f ∈ contents.files, Plain f.path := by
  unfold Plain
  decide +kernel

/-- Both functions match the path that is written with a backslash, the inner one comes first, and
without a line and a column the lookup answers it. -/
theorem searched_inner :
    index.Asks work contents ∧ contents.Complete ∧ (contents.entities.map (·.id)).Nodup ∧
      (∀ f ∈ contents.files, Plain f.path) ∧ Plain "lib\\pkg.adb" ∧ fitsWord (-1) = true ∧
      (Index.findings (index.entities (some "F") (some (.text "lib\\pkg.adb")) none) work).1 =
        .ok [.entity inner, .entity outer] ∧
      (index.entity? "F" (.text "lib\\pkg.adb") (-1) (-1) work).1 = .ok (some 1) := by
  have hplain : Plain "lib\\pkg.adb" := by
    unfold Plain
    decide
  have hfit : fitsWord (-1) = true := by decide
  refine ⟨asks, reached.sound.toComplete, ids_nodup, plain_files, hplain, hfit, ?_⟩
  obtain ⟨hsearch, hlookup⟩ :=
    asks.search_by_segments reached.sound.toComplete ids_nodup plain_files hplain
  obtain ⟨es, hes, hmem, hnodup, hsorted⟩ := hsearch (some "F") none
  obtain ⟨es', hes', hid⟩ := hlookup "F" (-1) (-1) hfit hfit
  have heq : es = [inner, outer] := by
    have hboth (e : EntityInfo) : e ∈ es ↔ e ∈ [inner, outer] := by
      rw [hmem, ← List.mem_filterMap, infos_eq]
      refine and_iff_left_of_imp fun he => ?_
      simp only [List.mem_cons, List.not_mem_nil, or_false] at he
      rcases he with rfl | rfl <;> decide
    have hperm : es.Perm [inner, outer] :=
      (List.perm_ext_iff_of_nodup hnodup.of_map (by decide)).2 hboth
    refine hperm.eq_of_pairwise (fun d e hd he hde hed => ?_) hsorted (by decide)
    simp only [hboth, List.mem_cons, List.not_mem_nil, or_false] at hd he
    rcases hd with rfl | rfl <;> rcases he with rfl | rfl
    · rfl
    · exact absurd hed (by decide)
    · exact absurd hde (by decide)
    · rfl
  subst heq
  have hes' : es' = [inner, outer] :=
    (List.map_injective_iff.2 (fun _ _ => Finding.entity.inj)) (Except.ok.inj (hes'.symm.trans hes))
  rw [hid, hes']
  exact ⟨hes, rfl⟩

end Shadowed

end Crossref
