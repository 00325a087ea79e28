/-
Looking an entity up by its own name and place. A path matches more stored paths than
itself: those that it ends with and those that end with it. Of the entities that
match, the lookup answers the one whose path comes first, and that is the entity
that was meant only if no shorter or longer path with an entity of the same name at
the same line and column comes before its own.
-/
import Crossref.Proofs.Artifact.Placed
import Crossref.Proofs.Index.Asking
import Crossref.Proofs.Store.Search
import Crossref.Proofs.Update.Ownership
import Crossref.Proofs.Update.Reached

namespace Crossref

/-! ## The entities of contents that were reached -/

theorem CompilationUnit.Owns.declared {u : CompilationUnit} {k : EntityKey} (h : u.Owns k) :
    ∃ d ∈ u.declarations, d.key = k := by
  obtain ⟨d, hd, hk⟩ := h
  exact ⟨d, List.mem_of_mem_filter hd, hk⟩

namespace Contents

variable {c : Contents} {e d : EntityInfo}

/-- An entity stands where a unit declares it, at a place that can be asked for. -/
theorem Reached.placed (h : c.Reached) {k : EntityKey} (hk : c.Knows k) : k.Placed := by
  obtain ⟨path, steps, rfl⟩ := h
  obtain ⟨p, hp⟩ := (History.run_sound path steps).knows_iff.1 hk
  obtain ⟨u, hu, howns⟩ := hp.current
  obtain ⟨content, hread⟩ := History.current_read hu
  obtain ⟨d, hd, rfl⟩ := howns.declared
  exact Artifact.readBytes_placed hread d hd

theorem Reached.fits (h : c.Reached) {k : EntityKey} (hk : c.Knows k) : k.location.Fits := by
  obtain ⟨path, steps, rfl⟩ := h
  obtain ⟨p, hp⟩ := (History.run_sound path steps).knows_iff.1 hk
  obtain ⟨u, hu, howns⟩ := hp.current
  obtain ⟨d, hd, rfl⟩ := howns
  exact ((History.run_sound path steps).current_fits hu).owned d hd

end Contents

namespace EntityInfo

/-- The key under which the entity is known. -/
def key (e : EntityInfo) : EntityKey :=
  ⟨e.name, e.location.file, e.location.line, e.location.column⟩

/-- The search for the entity by its own name and place. -/
def ownFilter (e : EntityInfo) : EntityFilter where
  name := some e.name
  file := some e.location.file
  line := e.location.line
  column := e.location.column

/-- What is asked for with the name and the place of `e` is true of `d` as well. -/
structure Namesake (e d : EntityInfo) : Prop where
  name : d.name = e.name
  line : d.location.line = e.location.line
  column : d.location.column = e.location.column
  file : matchesFile d.location.file e.location.file = true

theorem Namesake.refl (e : EntityInfo) : e.Namesake e :=
  ⟨rfl, rfl, rfl, matchesFile_self _⟩

theorem accepts_ownFilter {e d : EntityInfo} (hplaced : e.key.Placed) :
    e.ownFilter.accepts d = true ↔ e.Namesake d := by
  have hline : e.location.line ≠ -1 := by
    have := hplaced.line
    simp only [key] at this
    omega
  have hcolumn : e.location.column ≠ -1 := by
    have := hplaced.column
    simp only [key] at this
    omega
  simp only [EntityFilter.accepts, ownFilter, Option.all_some, Option.all_none, hline, hcolumn,
    decide_false, Bool.false_or, Bool.and_true, Bool.and_eq_true, decide_eq_true_eq]
  constructor
  · intro h
    obtain ⟨⟨⟨hname, hfile⟩, hline⟩, hcolumn⟩ := h
    exact ⟨hname, of_decide_eq_true hline, of_decide_eq_true hcolumn, hfile⟩
  · intro h
    exact ⟨⟨⟨h.name, h.file⟩, decide_eq_true h.line⟩, decide_eq_true h.column⟩

end EntityInfo

/-! ## The first of the namesakes -/

theorem Store.filterNumbers_fit {f : EntityFilter} (hline : fitsWord f.line = true)
    (hcolumn : fitsWord f.column = true) : (Store.filterNumbers f).all fitsWord = true := by
  rw [List.all_eq_true]
  intro n hn
  have hn := List.mem_of_mem_filter hn
  simp only [List.mem_cons, List.not_mem_nil, or_false] at hn
  rcases hn with rfl | rfl
  · exact hline
  · exact hcolumn

namespace Contents

variable {c : Contents} {e d found : EntityInfo}

theorem mem_all : e ∈ c.entityInfos {} ↔ ∃ r ∈ c.entities, c.info? r = some e := by
  rw [mem_entityInfos]
  simp [EntityFilter.accepts]

theorem knows_of_mem (h : e ∈ c.entityInfos {}) : c.Knows e.key := by
  obtain ⟨r, hr, hinfo⟩ := mem_all.1 h
  exact ⟨r, hr, (info?_eq_some.1 hinfo).1⟩

theorem Sound.key?_of_info (h : c.Sound) (he : e ∈ c.entityInfos {}) :
    c.names.key? e.id = some e.key := by
  obtain ⟨r, hr, hinfo⟩ := mem_all.1 he
  obtain ⟨hkey, hid, -⟩ := info?_eq_some.1 hinfo
  rw [hid, h.key?_of_mem hr]
  exact hkey

/-- Entities are told apart by their ids as well as by their keys. -/
theorem Sound.id_eq_iff (h : c.Sound) (hd : d ∈ c.entityInfos {}) (he : e ∈ c.entityInfos {}) :
    d.id = e.id ↔ d.key = e.key := by
  have hdk := h.key?_of_info hd
  have hek := h.key?_of_info he
  constructor
  · intro hid
    rw [hid] at hdk
    exact Option.some.inj (hdk.symm.trans hek)
  · intro hkey
    exact h.key_inj hdk (hkey ▸ hek)

theorem Reached.mem_ownFilter (h : c.Reached) (he : e ∈ c.entityInfos {}) :
    d ∈ c.entityInfos e.ownFilter ↔ d ∈ c.entityInfos {} ∧ e.Namesake d := by
  rw [mem_entityInfos, mem_all, EntityInfo.accepts_ownFilter (h.placed (knows_of_mem he))]

/-- Some entity is found, and among the namesakes its path comes first. -/
theorem Reached.head?_ownFilter (h : c.Reached) (he : e ∈ c.entityInfos {}) :
    ∃ found ∈ c.entityInfos {}, (c.entityInfos e.ownFilter).head? = some found ∧ e.Namesake found ∧
      ∀ d ∈ c.entityInfos {}, e.Namesake d → found.location.file ≤ d.location.file := by
  have hself : e ∈ c.entityInfos e.ownFilter := (h.mem_ownFilter he).2 ⟨he, .refl e⟩
  obtain ⟨found, hfound⟩ := Option.isSome_iff_exists.1
    (List.isSome_head?.2 (List.ne_nil_of_mem hself))
  obtain ⟨hmem, hnamesake⟩ := (h.mem_ownFilter he).1 (List.mem_of_head? hfound)
  refine ⟨found, hmem, hfound, hnamesake, fun d hd hd' => ?_⟩
  exact EntityInfo.file_le (le_of_head?_entityInfos hfound d ((h.mem_ownFilter he).2 ⟨hd, hd'⟩))

/-- What comes first is the entity that was meant if no namesake comes before that. -/
theorem Reached.first_id_iff (h : c.Reached) (he : e ∈ c.entityInfos {})
    (hfound : found ∈ c.entityInfos {}) (hnamesake : e.Namesake found)
    (hfirst : ∀ d ∈ c.entityInfos {}, e.Namesake d → found.location.file ≤ d.location.file) :
    found.id = e.id ↔
      ∀ d ∈ c.entityInfos {}, e.Namesake d → e.location.file ≤ d.location.file := by
  rw [h.sound.id_eq_iff hfound he]
  constructor
  · intro hkey d hd hd'
    have hfile : found.location.file = e.location.file := congrArg EntityKey.file hkey
    exact hfile ▸ hfirst d hd hd'
  · intro hleast
    have hfile : found.location.file = e.location.file :=
      le_antisymm (hfirst e he (.refl e)) (hleast found hfound hnamesake)
    simp only [EntityInfo.key, hnamesake.name, hnamesake.line, hnamesake.column, hfile]

theorem Reached.filterNumbers_fit (h : c.Reached) (he : e ∈ c.entityInfos {}) :
    (Store.filterNumbers e.ownFilter).all fitsWord = true :=
  Store.filterNumbers_fit (h.fits (knows_of_mem he)).1 (h.fits (knows_of_mem he)).2

end Contents

/-! ## Lookups -/

namespace Index

variable {x : Index} {w : Workspace} {c : Contents}

/-- A lookup answers the first entity that the search finds. -/
theorem Asks.entity?_apply (h : x.Asks w c) (hc : c.Complete) {name : String} {file : FileArgument}
    {line column : Int}
    (hfit : (Store.filterNumbers { name := some name, file := some file.searched, line, column }).all fitsWord =
      true) :
    (x.entity? name file line column w).1 =
      .ok ((c.entityInfos { name := some name, file := some file.searched, line, column }).head?.map (·.id)) := by
  obtain ⟨id, _, hid, -⟩ := h.admitted
  let filter : EntityFilter := { name := some name, file := some file.searched, line, column }
  have hq (s : Store) (hs : s.contents = c) :
      Store.entities filter s = (.ok (c.entityInfos filter), s.start) := by
    subst hs
    exact StoreM.query_apply hc _ hfit _
  obtain ⟨k, hask, -⟩ := h.ask hid hq
  unfold entity?
  rw [hid]
  change ((Index.ask id (Store.entities filter) >>= _ : WorkM _) w).1 = _
  rw [WorkM.bind_apply, hask]
  rfl

theorem Asks.entities_apply (h : x.Asks w c) (hc : c.Complete) (name : Option String)
    (file : Option FileArgument) (kind : Option String) :
    (Index.findings (x.entities name file kind) w).1 =
      .ok ((c.entityInfos { name, file := file.map (·.searched), kind }).map .entity) := by
  let filter : EntityFilter := { name, file := file.map (·.searched), kind }
  have hq (s : Store) (hs : s.contents = c) : Store.entities filter s = (.ok (c.entityInfos filter), s.start) := by
    subst hs
    exact StoreM.query_apply hc _ rfl _
  exact h.findings hq fun _ _ => rfl

theorem Asks.entities_found (h : x.Asks w c) (hc : c.Complete) :
    (Index.findings (x.entities none none none) w).1 = .ok ((c.entityInfos {}).map .entity) :=
  h.entities_apply hc none none none

/-- **A lookup by the own name and place of an entity answers the namesake whose path comes
first.** It is the entity itself exactly if the path of no namesake comes before its own. A
namesake has the same name, line and column, and a path that a search for the other one accepts:
for plain paths this means that one of the two ends with the segments of the other. -/
theorem Asks.lookup_own_place (h : x.Asks w c) (hc : c.Reached) :
    ∃ es : List EntityInfo,
      (Index.findings (x.entities none none none) w).1 = .ok (es.map .entity) ∧
      (∀ e ∈ es, ∃ found ∈ es,
        (x.entity? e.name (.text e.location.file) e.location.line e.location.column w).1 =
            .ok (some found.id) ∧
          e.Namesake found ∧
          (∀ d ∈ es, e.Namesake d → found.location.file ≤ d.location.file) ∧
          (found.id = e.id ↔ ∀ d ∈ es, e.Namesake d → e.location.file ≤ d.location.file)) ∧
      ∀ e ∈ es, ∀ d ∈ es, Plain e.location.file → Plain d.location.file →
        (e.Namesake d ↔ d.name = e.name ∧ d.location.position = e.location.position ∧
          (segments e.location.file <:+ segments d.location.file ∨
            segments d.location.file <:+ segments e.location.file)) := by
  have hcomplete := hc.sound.toComplete
  refine ⟨c.entityInfos {}, h.entities_found hcomplete, fun e he => ?_, fun e _ d _ he hd => ?_⟩
  · obtain ⟨found, hmem, hhead, hnamesake, hfirst⟩ := hc.head?_ownFilter he
    refine ⟨found, hmem, ?_, hnamesake, hfirst, hc.first_id_iff he hmem hnamesake hfirst⟩
    have hfile : slashed e.location.file = e.location.file := (hc.placed (Contents.knows_of_mem he)).file
    have hsearched : (FileArgument.text e.location.file).searched = e.location.file := hfile
    rw [h.entity?_apply hcomplete (by rw [hsearched]; exact hc.filterNumbers_fit he), hsearched]
    exact congrArg (fun o => Except.ok (o.map (·.id))) hhead
  · have hposition : d.location.position = e.location.position ↔
        d.location.line = e.location.line ∧ d.location.column = e.location.column := by
      simp [Location.position]
    rw [hposition, ← matchesFile_iff hd he]
    constructor
    · intro hsame
      exact ⟨hsame.name, ⟨hsame.line, hsame.column⟩, hsame.file⟩
    · intro hsame
      obtain ⟨hname, ⟨hline, hcolumn⟩, hfile⟩ := hsame
      exact ⟨hname, hline, hcolumn, hfile⟩

end Index

/-! ## An entity behind another -/

namespace Shadowed

/-- One unit with two files; each declares a function `F` in its first column. -/
def text : String :=
  "V \"1\"\nU p%b lib/pkg.adb 00000000\nU p%b pkg.adb 00000000\n" ++
    "D lib/pkg.adb 20240101000000 00000000\nD pkg.adb 20240101000000 00000000\n" ++
    "X 1 lib/pkg.adb\n1V1*F\nX 2 pkg.adb\n1V1*F\n"

def step : UpdateStep where
  files :=
    { cwd := ["t"], nodes := [(["t"], .directory), (["t", "p.ali"], .bytes text.toUTF8.toList 1)] }
  cancel _ := false
  now := 2
  plan := { stale := [⟨{ path := "/t/p.ali" }, 1, true⟩] }

def contents : Contents :=
  (History.run "s" [step]).store.contents

def index : Index :=
  { threshold := 0, connection := some 0 }

/-- A workspace with one connection, to a store in memory. -/
def work : Workspace where
  files := step.files
  connections := [{ path := memoryPath, readOnly := false, place := none, contents }]

def inner : EntityInfo :=
  ⟨1, "F", "function", ⟨"lib/pkg.adb", 1, 1⟩⟩

def outer : EntityInfo :=
  ⟨2, "F", "function", ⟨"pkg.adb", 1, 1⟩⟩

theorem reached : contents.Reached :=
  ⟨"s", [step], rfl⟩

theorem asks : index.Asks work contents :=
  ⟨0, _, rfl, rfl, rfl, rfl⟩

theorem infos_eq : contents.entities.filterMap contents.info? = [inner, outer] := by
  decide +kernel

theorem mem_entityInfos {e : EntityInfo} : e ∈ contents.entityInfos {} ↔ e = inner ∨ e = outer := by
  rw [Contents.mem_all, ← List.mem_filterMap, infos_eq]
  simp

theorem looked_up_inner :
    index.Asks work contents ∧ contents.Reached ∧
      (index.entity? "F" (.text "lib/pkg.adb") 1 1 work).1 = .ok (some 1) := by
  refine ⟨asks, reached, ?_⟩
  obtain ⟨es, hes, hlookup, -⟩ := asks.lookup_own_place reached
  have hmem (e : EntityInfo) : e ∈ es ↔ e = inner ∨ e = outer := by
    have hsame := Except.ok.inj (hes.symm.trans (asks.entities_found reached.sound.toComplete))
    have hes : es = contents.entityInfos {} :=
      List.map_injective_iff.2 (fun _ _ => Finding.entity.inj) hsame
    rw [hes, mem_entityInfos]
  obtain ⟨found, hfound, hanswer, -, hfirst, hid⟩ := hlookup inner ((hmem _).2 (.inl rfl))
  have hleast : ∀ d ∈ es, inner.Namesake d → inner.location.file ≤ d.location.file := by
    intro d hd _
    rcases (hmem d).1 hd with rfl | rfl
    · exact le_refl _
    · decide
  have hone : found.id = 1 := hid.2 hleast
  rw [hone] at hanswer
  exact hanswer

/-- The function of the outer file is listed, but its name and place lead to the one in the
directory: that path ends with the path that is asked for, and comes first. -/
theorem looked_up_other :
    index.Asks work contents ∧ contents.Reached ∧
      (∃ es : List EntityInfo, (Index.findings (index.entities none none none) work).1 =
        .ok (es.map .entity) ∧ outer ∈ es) ∧
      (index.entity? outer.name (.text outer.location.file) outer.location.line outer.location.column
        work).1 = .ok (some 1) ∧ outer.id ≠ 1 := by
  have hcomplete := reached.sound.toComplete
  have houter : outer ∈ contents.entityInfos {} := mem_entityInfos.2 (.inr rfl)
  obtain ⟨found, hfound, hhead, -, hfirst⟩ := reached.head?_ownFilter houter
  refine ⟨asks, reached, ⟨_, asks.entities_found hcomplete, houter⟩, ?_, by decide⟩
  rcases mem_entityInfos.1 hfound with rfl | rfl
  · have hsearched : (FileArgument.text outer.location.file).searched = outer.location.file := by decide
    rw [asks.entity?_apply hcomplete (by rw [hsearched]; exact reached.filterNumbers_fit houter), hsearched]
    exact congrArg (fun o => Except.ok (o.map (·.id))) hhead
  · have hinner : outer.Namesake inner := ⟨rfl, rfl, rfl, by decide⟩
    exact absurd (hfirst inner (mem_entityInfos.2 (.inl rfl)) hinner) (by decide)

end Shadowed

end Crossref
