/-
What an artifact leaves is closed. In the unit that is read, and in the part that a
refusal carries, every key that is used is declared, every place is in a dependency,
and dependencies and paths have the form that the index stores. The reader can refuse
a line anywhere, so this holds of the draft after every change.
-/
import Crossref.Proofs.Artifact.Named

namespace Crossref

namespace CompilationUnit

def keys (u : CompilationUnit) : List EntityKey :=
  u.declarations.map (·.key)

def dependencyPaths (u : CompilationUnit) : List String :=
  u.dependencies.map (·.path)

/-- Every path that the unit names. -/
def paths (u : CompilationUnit) : List String :=
  u.sourceFiles ++ u.dependencyPaths ++ u.keys.map (·.file) ++
    u.references.flatMap (fun r => r.target.file :: r.location.file :: r.scope.toList.map (·.file)) ++
      u.parameters.flatMap fun p => [p.owner.file, p.key.file]

end CompilationUnit

/-- Path, stamp and checksum of a dependency have the form that the index stores. -/
structure Dependency.WellFormed (r : Dependency) : Prop where
  path : '\\' ∉ r.path.toList
  stamp : r.stamp.toList.length = 14 ∧ ∀ c ∈ r.stamp.toList, Text.isDecimal c = true
  checksum : r.checksum.toList.length = 8 ∧ ∀ c ∈ r.checksum.toList, c ∈ "0123456789abcdef".toList

/-- What a unit says is about what it declares, in the files that it depends on. -/
structure CompilationUnit.Closed (u : CompilationUnit) : Prop where
  distinct : u.keys.Nodup
  targets : ∀ r ∈ u.references, r.target ∈ u.keys
  scopes : ∀ r ∈ u.references, ∀ k ∈ r.scope, k ∈ u.keys
  owners : ∀ p ∈ u.parameters, p.owner ∈ u.keys
  declared : ∀ k ∈ u.keys, k.file ∈ u.dependencyPaths
  referenced : ∀ r ∈ u.references, r.location.file ∈ u.dependencyPaths
  passed : ∀ p ∈ u.parameters, p.key.file ∈ u.dependencyPaths
  sources : u.sourceFiles.Nodup
  owned : ∀ d ∈ u.declarations, d.owned = true ↔ d.key.file ∈ u.sourceFiles
  /-- The key of a parameter is the one that is declared where the parameter is, if there is one. -/
  named : ∀ p ∈ u.parameters, p.key.name ≠ "" → p.key ∈ u.keys
  unnamed : ∀ p ∈ u.parameters, p.key.name = "" → ∀ k ∈ u.keys, k.location ≠ p.key.location
  dependencies : ∀ r ∈ u.dependencies, r.WellFormed
  plain : ∀ path ∈ u.paths, '\\' ∉ path.toList

theorem not_mem_slashed (path : String) : '\\' ∉ (slashed path).toList := by
  rw [slashed, String.toList_ofList]
  intro h
  obtain ⟨c, -, hc⟩ := List.mem_map.1 h
  by_cases hback : c = '\\'
  · rw [if_pos hback] at hc
    exact absurd hc (by decide)
  · rw [if_neg hback] at hc
    exact hback hc

namespace Artifact

/-- In lower case a hexadecimal digit is one of the sixteen that the index stores. -/
theorem toLower_mem_of_isHexDigit {c : Char} (h : isHexDigit c = true) :
    c.toLower ∈ "0123456789abcdef".toList := by
  have hsmall : c.toNat < 128 := by
    simp only [isHexDigit, Bool.or_eq_true, Bool.and_eq_true, decide_eq_true_eq] at h
    rcases h with (h | h) | h
    all_goals
      have hhigh := UInt32.le_iff_toNat_le.1 h.2
      exact Nat.lt_of_le_of_lt hhigh (by decide)
  have hall : ∀ n < 128, isHexDigit (Char.ofNat n) = true →
      (Char.ofNat n).toLower ∈ "0123456789abcdef".toList := by decide +kernel
  have hc := hall c.toNat hsmall
  rw [Char.ofNat_toNat] at hc
  exact hc h

theorem wellFormed_written (path : String) {stamp checksum : List Char} (hstamp : isStamp stamp = true)
    (hchecksum : isChecksum checksum = true) (unitName : String) :
    Dependency.WellFormed
      ⟨slashed path, String.ofList stamp, String.ofList (checksum.map Char.toLower), unitName⟩ where
  path := not_mem_slashed path
  stamp := by
    rw [String.toList_ofList]
    simpa [isStamp] using hstamp
  checksum := by
    simp only [isChecksum, Bool.and_eq_true, decide_eq_true_eq, List.all_eq_true] at hchecksum
    rw [String.toList_ofList, List.length_map]
    exact ⟨hchecksum.1, List.forall_mem_map.2 fun c hc => toLower_mem_of_isHexDigit (hchecksum.2 c hc)⟩

namespace Draft

/-- What is closed in the draft after every change. -/
structure Closed (d : Draft) : Prop where
  named : d.Named
  sources : d.sourceFiles.Nodup
  plain : ∀ path ∈ d.sourceFiles, '\\' ∉ path.toList
  dependencies : ∀ r ∈ d.dependencies, r.WellFormed
  entered : ∀ file ∈ d.sectionFile, file ∈ d.dependencies.map (·.path)
  opened : ∀ e ∈ d.entity, e.key ∈ d.keys ∧ e.file ∈ d.dependencies.map (·.path)
  declared : ∀ k ∈ d.keys, k.file ∈ d.dependencies.map (·.path)
  uses : ∀ u ∈ d.uses, u.target ∈ d.keys ∧ u.location.file ∈ d.dependencies.map (·.path)
  passed : ∀ p ∈ d.passed, p.owner ∈ d.keys ∧ p.location.file ∈ d.dependencies.map (·.path)

variable {d : Draft}

theorem mem_keys_declare {new : Declared} {k : EntityKey} :
    k ∈ (d.declare new).keys ↔ k ∈ d.keys ∨ k = new.key := by
  rw [keys_declare]
  split
  next hold =>
    refine ⟨.inl, fun h => h.elim id fun heq => ?_⟩
    exact heq ▸ hold
  · simp

namespace Closed

/-- A further source file is a path without a backslash, and is kept once. -/
theorem unit (h : d.Closed) (unitName source : String) :
    ({ d with
      unitName
      sourceFiles :=
        if d.sourceFiles.contains (slashed source) then d.sourceFiles
        else d.sourceFiles ++ [slashed source] } : Draft).Closed := by
  refine { h with named := invariant_named.unit h.named unitName source, sources := ?_, plain := ?_ }
  · dsimp only
    split
    · exact h.sources
    next hnew =>
      rw [List.contains_iff_mem] at hnew
      exact List.nodup_append_comm.1 (List.nodup_cons.2 ⟨hnew, h.sources⟩)
  · dsimp only
    intro path hpath
    split at hpath
    · exact h.plain path hpath
    · rcases List.mem_append.1 hpath with hpath | hpath
      · exact h.plain path hpath
      · exact List.mem_singleton.1 hpath ▸ not_mem_slashed source

/-- A further dependency leaves the others where they are. -/
theorem depend (h : d.Closed) {r : Dependency} (hr : r.WellFormed)
    (hnamed : ({ d with dependencies := d.dependencies ++ [r] } : Draft).Named) :
    ({ d with dependencies := d.dependencies ++ [r] } : Draft).Closed := by
  have hsub {path : String} (hpath : path ∈ d.dependencies.map (·.path)) :
      path ∈ (d.dependencies ++ [r]).map (·.path) := by
    rw [List.map_append]
    exact List.mem_append_left _ hpath
  exact
    { h with
      named := hnamed
      dependencies := List.forall_mem_append.2 ⟨h.dependencies, List.forall_mem_singleton.2 hr⟩
      entered := fun file hfile => hsub (h.entered file hfile)
      opened := fun e he => (h.opened e he).imp_right hsub
      declared := fun k hk => hsub (h.declared k hk)
      uses := fun u hu => (h.uses u hu).imp_right hsub
      passed := fun p hp => (h.passed p hp).imp_right hsub }

/-- A declaration is in the file of its section, and what was declared stays so. -/
theorem declare (h : d.Closed) {new : Declared} (hfile : d.sectionFile = some new.key.file)
    (hnamed : ({ d.declare new with entity := some ⟨new.key, new.key.file, 0⟩ } : Draft).Named) :
    ({ d.declare new with entity := some ⟨new.key, new.key.file, 0⟩ } : Draft).Closed := by
  have hentered : new.key.file ∈ d.dependencies.map (·.path) := h.entered _ hfile
  have hsub {k : EntityKey} (hk : k ∈ d.keys) : k ∈ (d.declare new).keys := mem_keys_declare.2 (.inl hk)
  refine
    { h with
      named := hnamed
      opened := ?_
      declared := fun k hk => ?_
      uses := fun u hu => (h.uses u hu).imp_left hsub
      passed := fun p hp => (h.passed p hp).imp_left hsub }
  · intro _ he
    cases he
    exact ⟨mem_keys_declare.2 (.inr rfl), hentered⟩
  · rcases mem_keys_declare.1 hk with hk | rfl
    · exact h.declared k hk
    · exact hentered

end Closed

theorem invariant_closed : Invariant Closed where
  version h v := { h with named := invariant_named.version h.named v }
  unit h unitName source := h.unit unitName source
  depend h path stamp checksum unitName hstamp hchecksum :=
    h.depend (wellFormed_written path hstamp hchecksum unitName)
      (invariant_named.depend h.named path stamp checksum unitName hstamp hchecksum)
  enter h r hr file hpath := by
    refine { h with named := invariant_named.enter h.named r hr file hpath, entered := ?_, opened := by simp }
    intro _ hfile
    cases hfile
    exact hpath ▸ List.mem_map_of_mem hr
  declare h new hname hfile hline hcolumn :=
    h.declare hfile (invariant_named.declare h.named new hname hfile hline hcolumn)
  move h r hr := by
    refine { h with named := invariant_named.move h.named r hr, opened := ?_ }
    intro _ hmoved
    obtain ⟨e, he, rfl⟩ := Option.map_eq_some_iff.1 hmoved
    exact ⟨(h.opened e he).1, List.mem_map_of_mem hr⟩
  use h he location kind hfile := by
    refine { h with named := invariant_named.use h.named he location kind hfile, uses := ?_ }
    refine List.forall_mem_append.2 ⟨h.uses, List.forall_mem_singleton.2 ?_⟩
    exact ⟨(h.opened _ he).1, hfile ▸ (h.opened _ he).2⟩
  pass h he location mode hfile := by
    have hopened := h.opened _ he
    refine { h with named := invariant_named.pass h.named he location mode hfile, opened := ?_, passed := ?_ }
    · intro _ he'
      cases he'
      exact hopened
    · refine List.forall_mem_append.2 ⟨h.passed, List.forall_mem_singleton.2 ?_⟩
      exact ⟨hopened.1, hfile ▸ hopened.2⟩

/-- The key at a location is declared there, or it has no name and nothing is declared there. -/
theorem keyAt_cases (d : Draft) (l : Location) :
    d.keyAt l ∈ d.keys ∧ (d.keyAt l).location = l ∨ d.keyAt l = l.key ∧ ∀ k ∈ d.keys, k.location ≠ l := by
  unfold keyAt
  cases hlast : (d.keys.filter (·.location = l)).getLast? with
  | none =>
    have hnone := List.filter_eq_nil_iff.1 (List.getLast?_eq_none_iff.1 hlast)
    exact .inr ⟨rfl, fun k hk heq => hnone k hk (decide_eq_true heq)⟩
  | some k =>
    have hk := List.mem_filter.1 (List.mem_of_getLast? hlast)
    exact .inl ⟨hk.1, of_decide_eq_true hk.2⟩

theorem location_keyAt (d : Draft) (l : Location) : (d.keyAt l).location = l := by
  rcases d.keyAt_cases l with h | h
  · exact h.2
  · rw [h.1]
    rfl

theorem keys_toUnit (d : Draft) : d.toUnit.keys = d.keys := by
  unfold CompilationUnit.keys toUnit
  rw [List.map_map]
  rfl

namespace Closed

variable (h : d.Closed)
include h

theorem dependencyPath {path : String} (hpath : path ∈ d.dependencies.map (·.path)) : '\\' ∉ path.toList := by
  obtain ⟨r, hr, rfl⟩ := List.mem_map.1 hpath
  exact (h.dependencies r hr).path

/-- What a reference names is declared, in a file that the draft depends on. -/
theorem of_mem_references : ∀ r ∈ d.toUnit.references,
    r.target ∈ d.keys ∧ (∀ k ∈ r.scope, k ∈ d.keys) ∧ r.location.file ∈ d.dependencies.map (·.path) := by
  refine List.forall_mem_map.2 fun u hu => ⟨(h.uses u hu).1, fun k hk => ?_, (h.uses u hu).2⟩
  -- a scope is the target of another use
  obtain ⟨u', hu', rfl⟩ := target_of_scopeOf hk
  exact (h.uses u' hu').1

/-- A parameter has the key that is declared where it is, or the location alone. -/
theorem of_mem_parameters : ∀ p ∈ d.toUnit.parameters,
    p.owner ∈ d.keys ∧ p.key.file ∈ d.dependencies.map (·.path) ∧ p.key = d.keyAt p.key.location := by
  refine List.forall_mem_map.2 fun p hp => ⟨(h.passed p hp).1, ?_, ?_⟩
  · have hfile : (d.keyAt p.location).file = p.location.file :=
      congrArg Location.file (d.location_keyAt p.location)
    exact hfile ▸ (h.passed p hp).2
  · exact congrArg d.keyAt (d.location_keyAt p.location).symm

theorem plain_toUnit : ∀ path ∈ d.toUnit.paths, '\\' ∉ path.toList := by
  have hkey {k : EntityKey} (hk : k ∈ d.keys) : '\\' ∉ k.file.toList := h.dependencyPath (h.declared k hk)
  intro path hpath
  simp only [CompilationUnit.paths, keys_toUnit, List.mem_append, List.mem_flatMap, List.mem_map, List.mem_cons,
    List.not_mem_nil, or_false, Option.mem_toList] at hpath
  rcases hpath with (((hpath | hpath) | ⟨k, hk, rfl⟩) | ⟨r, hr, rfl | rfl | ⟨k, hk, rfl⟩⟩) |
    ⟨p, hp, rfl | rfl⟩
  · exact h.plain path hpath
  · exact h.dependencyPath hpath
  · exact hkey hk
  · exact hkey (h.of_mem_references r hr).1
  · exact h.dependencyPath (h.of_mem_references r hr).2.2
  · exact hkey ((h.of_mem_references r hr).2.1 k hk)
  · exact hkey (h.of_mem_parameters p hp).1
  · exact h.dependencyPath (h.of_mem_parameters p hp).2.1

theorem toUnit : d.toUnit.Closed where
  distinct := by
    rw [keys_toUnit]
    exact h.named.distinct
  targets r hr := d.keys_toUnit ▸ (h.of_mem_references r hr).1
  scopes r hr k hk := d.keys_toUnit ▸ (h.of_mem_references r hr).2.1 k hk
  owners p hp := d.keys_toUnit ▸ (h.of_mem_parameters p hp).1
  declared := by
    rw [keys_toUnit]
    exact h.declared
  referenced r hr := (h.of_mem_references r hr).2.2
  passed p hp := (h.of_mem_parameters p hp).2.1
  sources := h.sources
  owned := List.forall_mem_map.2 fun _ _ => List.contains_iff_mem
  named p hp hname := by
    rw [keys_toUnit]
    have hkey := (h.of_mem_parameters p hp).2.2
    rcases d.keyAt_cases p.key.location with hk | hk
    · exact hkey ▸ hk.1
    · exact absurd (congrArg EntityKey.name (hkey.trans hk.1)) hname
  unnamed p hp hname := by
    rw [keys_toUnit]
    have hkey := (h.of_mem_parameters p hp).2.2
    rcases d.keyAt_cases p.key.location with hk | hk
    · obtain ⟨e, he, heq⟩ := List.mem_map.1 hk.1
      exact absurd ((congrArg EntityKey.name (heq.trans hkey.symm)).trans hname) (h.named.declared e he)
    · exact hk.2
  dependencies := h.dependencies
  plain := h.plain_toUnit

end Closed

end Draft

/-- **Every unit that an artifact leaves is closed**, the whole one and the one that a refusal carries;
and a refusal always carries one. -/
theorem readText_closed (path checksum : String) (text : List Char) :
    (∀ u, readText path checksum text = .ok u → u.Closed) ∧
      ∀ line reason sofar, readText path checksum text = .error (.refused line reason sofar) →
        ∃ u, sofar = some u ∧ u.Closed := by
  have hfirst : ({ path, checksum } : Draft).Closed :=
    { named := ⟨by simp, List.nodup_nil, by simp, by simp, by simp⟩
      sources := List.nodup_nil
      plain := by simp
      dependencies := by simp
      entered := by simp
      opened := by simp
      declared := by simp [Draft.keys]
      uses := by simp
      passed := by simp }
  have hleft {u : CompilationUnit} (hu : unitLeft (readText path checksum text) = some u) : u.Closed := by
    obtain ⟨d, hd, rfl⟩ := Draft.invariant_closed.leaves hfirst hu
    exact hd.toUnit
  refine ⟨fun u hu => hleft (by rw [hu]; rfl), fun line reason sofar hu => ?_⟩
  obtain ⟨u, rfl⟩ := Draft.sofar_of_readLines hu
  exact ⟨u, rfl, hleft (by rw [hu]; rfl)⟩

/-! A function with a parameter that is declared, one that is not, and a scope. A reference that is
refused in the end takes none of this away. -/

namespace CutShort

/-- The last line goes on with `further`. -/
def text (further : String) : String :=
  "V \"1\"\nU v%b src\\v.adb 0A1B2C3D\nD src\\v.adb 20240101000000 0A1B2C3D\nD w.ads 20240101000000 0A1B2C3D\n" ++
    "X 1 src\\v.adb\n2i9 P\n1V1*F 2>9 2|3<4\n.1|9t1 6r2" ++ further

def f : EntityKey :=
  ⟨"F", "src/v.adb", 1, 1⟩

def p : EntityKey :=
  ⟨"P", "src/v.adb", 2, 9⟩

def said : CompilationUnit where
  path := "v.ali"
  unitName := "v%b"
  version := "1"
  checksum := ""
  sourceFiles := ["src/v.adb"]
  dependencies :=
    [⟨"src/v.adb", "20240101000000", "0a1b2c3d", ""⟩, ⟨"w.ads", "20240101000000", "0a1b2c3d", ""⟩]
  declarations := [⟨p, "integer-object", false, true⟩, ⟨f, "function", true, true⟩]
  references :=
    [⟨f, ⟨"src/v.adb", 9, 1⟩, .endOfBody, none⟩, ⟨f, ⟨"src/v.adb", 6, 2⟩, .read, some f⟩]
  parameters := [⟨f, p, .input, 1⟩, ⟨f, ⟨"", "w.ads", 3, 4⟩, .output, 2⟩]

theorem said_closed :
    readText "v.ali" "" (text "").toList = .ok said ∧ said.Closed ∧
      readText "v.ali" "" (text " 7q1").toList =
        .error (.refused 8 (.unknownReferenceKind 'q' "7q1") (some said)) ∧
      ∃ u, some said = some u ∧ u.Closed := by
  have hread : readText "v.ali" "" (text "").toList = .ok said := by decide +kernel
  have hrefused : readText "v.ali" "" (text " 7q1").toList =
      .error (.refused 8 (.unknownReferenceKind 'q' "7q1") (some said)) := by decide +kernel
  exact ⟨hread, (readText_closed "v.ali" "" _).1 said hread, hrefused,
    (readText_closed "v.ali" "" _).2 _ _ _ hrefused⟩

end CutShort

end Artifact

end Crossref
