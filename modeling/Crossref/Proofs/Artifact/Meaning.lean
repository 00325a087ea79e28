/-
The draft that a document has been read into. It grows with the document as the
records let it grow, and the unit it stands for is what the document means.
-/
import Mathlib.Data.List.Basic
import Crossref.Proofs.Artifact.Document
import Crossref.Proofs.Firsts

namespace Crossref.Artifact

open Text

/-! ## Adding at the end -/

section
variable (ds : List Declared) (new : Declared) {key : EntityKey}

/-- The last declaration of a key. -/
def lastOf (key : EntityKey) : Option Declared :=
  (ds.filter (·.key = key)).getLast?

variable {ds} in
theorem key_of_lastOf {d : Declared} (h : lastOf ds key = some d) : d.key = key := by
  simpa using (List.mem_filter.1 (List.mem_of_getLast? h)).2

variable {ds} in
theorem exists_lastOf (h : key ∈ ds.map (·.key)) : ∃ d, lastOf ds key = some d := by
  obtain ⟨d, hd, rfl⟩ := List.mem_map.1 h
  have hmem : d ∈ ds.filter (·.key = d.key) := List.mem_filter.2 ⟨hd, by simp⟩
  exact ⟨_, List.getLast?_eq_some_getLast (List.ne_nil_of_mem hmem)⟩

theorem lastOf_snoc : lastOf (ds ++ [new]) key = if new.key = key then some new else lastOf ds key := by
  unfold lastOf
  rw [List.filter_append]
  by_cases h : new.key = key <;> simp [h]

theorem keys_lastOfEach : (lastOfEach ds).map (·.key) = (ds.map (·.key)).eraseDups := by
  have hself : (ds.map (·.key)).eraseDups.filterMap (fun key => (lastOf ds key).map (·.key)) =
      (ds.map (·.key)).eraseDups.filterMap some := by
    refine List.filterMap_congr fun key hkey => ?_
    obtain ⟨d, hd⟩ := exists_lastOf (List.mem_eraseDups.1 hkey)
    rw [hd, Option.map_some, key_of_lastOf hd]
  rw [lastOfEach, List.map_filterMap]
  exact hself.trans List.filterMap_some

/-- **A further declaration replaces the one of its key, or comes last.** -/
theorem lastOfEach_snoc :
    lastOfEach (ds ++ [new]) =
      if (lastOfEach ds).any (·.key = new.key) then
        (lastOfEach ds).map fun old => if old.key = new.key then new else old
      else lastOfEach ds ++ [new] := by
  have hany : (lastOfEach ds).any (·.key = new.key) = true ↔ new.key ∈ ds.map (·.key) := by
    rw [← List.mem_eraseDups, ← keys_lastOfEach, List.any_eq_true, List.mem_map]
    simp only [decide_eq_true_eq]
  have hkeys := eraseDups_snoc (ds.map (·.key)) new.key
  have hlast (key : EntityKey) : lastOf (ds ++ [new]) key = if new.key = key then some new else lastOf ds key :=
    lastOf_snoc ds new
  unfold lastOf at hlast
  rw [lastOfEach, List.map_append, List.map_singleton, hkeys]
  by_cases hnew : new.key ∈ ds.map (·.key)
  · rw [if_pos hnew, if_pos (hany.2 hnew), lastOfEach, List.map_filterMap]
    refine List.filterMap_congr fun key hkey => ?_
    obtain ⟨d, hd⟩ := exists_lastOf (List.mem_eraseDups.1 hkey)
    have hdkey := key_of_lastOf hd
    unfold lastOf at hd
    rw [hlast, hd, Option.map_some, hdkey]
    by_cases h : new.key = key
    · rw [if_pos h, if_pos h.symm]
    · rw [if_neg h, if_neg (Ne.symm h)]
  · rw [if_neg hnew, if_neg (mt hany.1 hnew), List.filterMap_append, lastOfEach]
    congr 1
    · refine List.filterMap_congr fun key hkey => ?_
      have hne : new.key ≠ key := fun heq => hnew (heq ▸ List.mem_eraseDups.1 hkey)
      rw [hlast, if_neg hne]
    · simp

end

/-! ## References one after the other -/

section
variable (fileAt : Numeral → String)

theorem locate_append (file : String) (ts ts' : List Token) :
    locate fileAt file (ts ++ ts') = locate fileAt file ts ++ locate fileAt (fileAfter fileAt file ts) ts' := by
  induction ts generalizing file with
  | nil => rfl
  | cons t ts ih =>
    rw [List.cons_append, locate, ih]
    rfl

theorem fileAfter_append (file : String) (ts ts' : List Token) :
    fileAfter fileAt file (ts ++ ts') = fileAfter fileAt (fileAfter fileAt file ts) ts' :=
  List.foldl_append

end

theorem usesOf_append (key : EntityKey) (ms ms' : List Located) :
    usesOf key (ms ++ ms') = usesOf key ms ++ usesOf key ms' :=
  List.filterMap_append

theorem modesOf_append (ms ms' : List Located) : modesOf (ms ++ ms') = modesOf ms ++ modesOf ms' :=
  List.filterMap_append

theorem passedOf_append (key : EntityKey) (n : Nat) (ms ms' : List Located) :
    passedOf key n (ms ++ ms') = passedOf key n ms ++ passedOf key (n + (modesOf ms).length) ms' := by
  unfold passedOf
  rw [modesOf_append, List.zipIdx_append, List.map_append, Nat.add_right_comm]

/-! ## The draft of a document -/

/-- The entity that receives references after the entry. -/
def Entry.opened (fileAt : Numeral → String) (e : Entry) (file : String) : OpenEntity :=
  ⟨e.key file, fileAfter fileAt file e.tokens, (modesOf (locate fileAt file e.tokens)).length⟩

/-- The draft after further references of its open entity. -/
def Draft.referring (fileAt : Numeral → String) (d : Draft) (e : OpenEntity) (ts : List Token) : Draft :=
  { d with
    entity := some
      { e with
        file := fileAfter fileAt e.file ts
        parameters := e.parameters + (modesOf (locate fileAt e.file ts)).length }
    uses := d.uses ++ usesOf e.key (locate fileAt e.file ts)
    passed := d.passed ++ passedOf e.key e.parameters (locate fileAt e.file ts) }

/-- The entity that receives references after the document: the last one of the last section. -/
def Document.openEntity (doc : Document) (fileAt : Numeral → String) : Option OpenEntity :=
  doc.sections.getLast?.bind fun s => s.entries.getLast?.map fun e => e.opened fileAt s.path

/-- The draft that the document has been read into, with the files of all dependencies that its
tokens name. -/
def Document.draft (doc : Document) (fileAt : Numeral → String) (path checksum : String) : Draft where
  path := path
  checksum := checksum
  version := some (String.ofList doc.version.text)
  unitName := doc.unitName
  sourceFiles := doc.sourceFiles
  dependencies := doc.dependencies.map (·.dependency)
  declared := doc.declared
  uses := doc.entries.flatMap fun p => p.1.uses fileAt p.2
  passed := doc.entries.flatMap fun p => p.1.passed fileAt p.2
  sectionFile := doc.sections.getLast?.map (·.path)
  entity := doc.openEntity fileAt

/-- **The draft stands for what the document means.** -/
theorem Document.toUnit_draft (doc : Document) (path checksum : String) :
    (doc.draft doc.fileAt path checksum).toUnit = doc.meaning path checksum := by
  have hkeys : (doc.draft doc.fileAt path checksum).keys = doc.keys := by
    unfold Draft.keys Document.keys
    rw [draft, declared, keys_lastOfEach, List.map_map]
    rfl
  unfold Draft.toUnit Draft.keyAt Document.meaning Document.keyAt
  rw [hkeys]
  rfl

namespace Document

variable (doc : Document) (fileAt : Numeral → String) (path checksum : String)

theorem draft_unit (u : UnitRecord) :
    ({ doc with units := doc.units ++ [u] } : Document).draft fileAt path checksum =
      let d := doc.draft fileAt path checksum
      { d with
        unitName := if d.unitName = "" then String.ofList u.unitName.text else d.unitName
        sourceFiles := if d.sourceFiles.contains u.file then d.sourceFiles else d.sourceFiles ++ [u.file] } := by
  have hname : ({ doc with units := doc.units ++ [u] } : Document).unitName =
      if doc.unitName = "" then String.ofList u.unitName.text else doc.unitName := by
    unfold unitName
    cases doc.units with
    | nil => rfl
    | cons v units =>
      have hne : String.ofList v.unitName.text ≠ "" := by simpa using v.unitName.nonempty
      simp [hne]
  have hfiles : ({ doc with units := doc.units ++ [u] } : Document).sourceFiles =
      if doc.sourceFiles.contains u.file then doc.sourceFiles else doc.sourceFiles ++ [u.file] := by
    unfold sourceFiles
    simp only [List.map_append, List.map_singleton, eraseDups_snoc]
    by_cases h : u.file ∈ doc.units.map (·.file)
    · rw [if_pos h, if_pos (List.contains_iff_mem.2 (List.mem_eraseDups.2 h))]
    · rw [if_neg h, if_neg fun hc => h (List.mem_eraseDups.1 (List.contains_iff_mem.1 hc))]
  unfold draft
  rw [hname, hfiles]
  rfl

theorem draft_dependency (d : DependencyRecord) :
    ({ doc with dependencies := doc.dependencies ++ [d] } : Document).draft fileAt path checksum =
      let draft := doc.draft fileAt path checksum
      { draft with dependencies := draft.dependencies ++ [d.dependency] } := by
  unfold draft
  rw [List.map_append]
  rfl

theorem draft_section {s : Section} (hnew : s.entries = []) :
    ({ doc with sections := doc.sections ++ [s] } : Document).draft fileAt path checksum =
      { doc.draft fileAt path checksum with sectionFile := some s.path, entity := none } := by
  have hentries : ({ doc with sections := doc.sections ++ [s] } : Document).entries = doc.entries := by
    simp [entries, hnew]
  unfold draft declared
  rw [hentries]
  simp only [openEntity, hnew, List.getLast?_concat, List.getLast?_nil, Option.map_some, Option.map_none,
    Option.bind_some]
  rfl

section
variable (before : List Section) (s : Section) (es : List Entry) (e : Entry)

theorem entries_snoc :
    (doc.ending before s (es ++ [e])).entries = (doc.ending before s es).entries ++ [(e, s.path)] := by
  simp [entries, ending, Section.path]

theorem openEntity_snoc :
    (doc.ending before s (es ++ [e])).openEntity fileAt = some (e.opened fileAt s.path) := by
  simp [openEntity, ending, Section.path]

theorem draft_entity :
    (doc.ending before s (es ++ [e])).draft fileAt path checksum =
      let d := (doc.ending before s es).draft fileAt path checksum
      let first : OpenEntity := ⟨e.key s.path, s.path, 0⟩
      { d.declare (e.declared s.path) with entity := some first }.referring fileAt first e.tokens := by
  have hdeclared : (doc.ending before s (es ++ [e])).declared =
      (((doc.ending before s es).draft fileAt path checksum).declare (e.declared s.path)).declared := by
    rw [declared, entries_snoc, List.map_append, List.map_singleton, lastOfEach_snoc]
    rfl
  have hopened : e.opened fileAt s.path =
      ⟨e.key s.path, fileAfter fileAt s.path e.tokens, 0 + (modesOf (locate fileAt s.path e.tokens)).length⟩ := by
    rw [Nat.zero_add]
    rfl
  unfold draft at hdeclared ⊢
  rw [openEntity_snoc, hopened, hdeclared, entries_snoc, List.flatMap_append, List.flatMap_append, List.flatMap_singleton,
    List.flatMap_singleton]
  simp only [Draft.referring, Draft.declare, ending, List.getLast?_concat, Option.map_some]
  rfl

/-- **Further references go on where the last ones ended**, in the file and with the number that
they left. -/
theorem draft_continuation (ts : List Token) :
    (doc.ending before s (es ++ [{ e with tokens := e.tokens ++ ts }])).draft fileAt path checksum =
      ((doc.ending before s (es ++ [e])).draft fileAt path checksum).referring fileAt
        (e.opened fileAt s.path) ts := by
  have hopened : ({ e with tokens := e.tokens ++ ts } : Entry).opened fileAt s.path =
      { e.opened fileAt s.path with
        file := fileAfter fileAt (e.opened fileAt s.path).file ts
        parameters := (e.opened fileAt s.path).parameters +
          (modesOf (locate fileAt (e.opened fileAt s.path).file ts)).length } := by
    simp only [Entry.opened, fileAfter_append, locate_append, modesOf_append, List.length_append]
    rfl
  have hdeclared : (doc.ending before s (es ++ [{ e with tokens := e.tokens ++ ts }])).declared =
      (doc.ending before s (es ++ [e])).declared := by
    simp only [declared, entries_snoc, List.map_append, List.map_singleton]
    rfl
  have huses : ({ e with tokens := e.tokens ++ ts } : Entry).uses fileAt s.path =
      e.uses fileAt s.path ++ usesOf (e.key s.path) (locate fileAt (e.opened fileAt s.path).file ts) := by
    simp only [Entry.uses, locate_append, usesOf_append]
    rfl
  have hpassed : ({ e with tokens := e.tokens ++ ts } : Entry).passed fileAt s.path =
      e.passed fileAt s.path ++ passedOf (e.key s.path) (e.opened fileAt s.path).parameters
        (locate fileAt (e.opened fileAt s.path).file ts) := by
    simp only [Entry.passed, locate_append, passedOf_append, Nat.zero_add]
    rfl
  unfold draft
  rw [openEntity_snoc, hopened, hdeclared, entries_snoc, entries_snoc]
  simp only [List.flatMap_append, List.flatMap_singleton, huses, hpassed, List.append_assoc,
    Draft.referring]
  simp only [ending, List.getLast?_concat, Option.map_some]
  rfl

end

end Document

end Crossref.Artifact
