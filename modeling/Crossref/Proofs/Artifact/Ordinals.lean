/-
The ordinals of parameters. The lines of an artifact form blocks: an entity line with
the lines that continue it. The counter of parameters is part of the open block, so it
runs on over continuation lines and starts anew with every entity line, also with a
further line of the same entity.
-/
import Crossref.Proofs.Artifact.Named
import Crossref.Proofs.Artifact.Steps
import Crossref.Proofs.Text.Words

namespace Crossref

/-- The ordinals of the parameters of an owner, as they are listed. -/
def CompilationUnit.ordinals (u : CompilationUnit) (owner : EntityKey) : List Nat :=
  (u.parameters.filter (·.owner = owner)).map (·.ordinal)

namespace Artifact

open Text

/-! ## Blocks -/

/-- The mode under which a word gives a parameter. -/
def mode? (word : List Char) : Option ParameterMode :=
  (Mention.ofText? word).bind fun m => parameterModes.lookup m.tag

/-- The parameters among the words of a line, by their modes. -/
def modesIn (s : List Char) : List ParameterMode :=
  (words s).filterMap mode?

/-- Parameters of an owner, numbered on from a number. -/
def numbered (owner : EntityKey) (n : Nat) (modes : List ParameterMode) : List (EntityKey × ParameterMode × Nat) :=
  (modes.zipIdx n).map (owner, ·)

theorem numbered_append (owner : EntityKey) (n : Nat) (modes modes' : List ParameterMode) :
    numbered owner n (modes ++ modes') = numbered owner n modes ++ numbered owner (n + modes.length) modes' := by
  rw [numbered, List.zipIdx_append, List.map_append]
  rfl

/-- An entity line with the lines that continue it: the entity and the parameters that they give it. -/
structure Block where
  key : EntityKey
  modes : List ParameterMode
  deriving DecidableEq, Repr

/-- The parameters of a block are numbered from one. -/
def Block.parameters (b : Block) : List (EntityKey × ParameterMode × Nat) :=
  numbered b.key 1 b.modes

/-- The blocks of the lines so far, and the file of the section they end in. -/
structure Outline where
  file : Option String := none
  blocks : List Block := []
  deriving DecidableEq, Repr

namespace Outline

/-- The key that the head of an entity line declares. -/
def key? (o : Outline) (head : EntityHead) : Option EntityKey :=
  match o.file, readInt head.line, readInt head.column with
  | some file, .ok line, .ok column => some ⟨String.ofList head.name, file, line, column⟩
  | _, _, _ => none

/-- The last block has further parameters. -/
def further (o : Outline) (modes : List ParameterMode) : Outline :=
  match o.blocks.getLast? with
  | none => o
  | some b => { o with blocks := o.blocks.dropLast ++ [{ b with modes := b.modes ++ modes }] }

/-- An entity line opens a block. -/
def entity (o : Outline) (line : List Char) : Outline :=
  match EntityHead.ofText? line with
  | none => o
  | some head =>
    match o.key? head with
    | none => o
    | some key => { o with blocks := o.blocks ++ [⟨key, modesIn head.rest⟩] }

/-- What a line without blanks at its end adds. -/
def record (o : Outline) : List Char → Outline
  | 'X' :: body => { o with file := (words body)[1]?.map fun file => slashed (String.ofList file) }
  | '.' :: rest => o.further (modesIn rest)
  | line => o.entity line

theorem record_of_digit {o : Outline} {tag : Char} (htag : isDigitLike tag = true) (rest : List Char) :
    o.record (tag :: rest) = o.entity (tag :: rest) := by
  unfold record
  split
  next heq =>
    cases heq
    exact absurd htag (by decide)
  next heq =>
    cases heq
    exact absurd htag (by decide)
  · rfl

theorem ofText?_eq_none {c : Char} (hc : isDecimal c = false) (s : List Char) :
    EntityHead.ofText? (c :: s) = none := by
  unfold EntityHead.ofText?
  simp only [List.dropWhile_cons, List.takeWhile_cons, hc, Bool.false_eq_true, if_false]
  split <;> rfl

/-- The other records with a letter say nothing of parameters. -/
theorem record_of_header {o : Outline} {tag : Char} (htag : tag ∈ ['V', 'U', 'D', 'X', 'A', 'W'])
    (hne : tag ≠ 'X') (rest : List Char) : o.record (tag :: rest) = o := by
  have hdecimal : isDecimal tag = false := by
    have hall : ['V', 'U', 'D', 'X', 'A', 'W'].all (fun c => !isDecimal c) = true := by decide
    simpa using List.all_eq_true.1 hall tag htag
  unfold record
  split
  next heq =>
    cases heq
    exact absurd rfl hne
  next heq =>
    cases heq
    exact absurd htag (by decide)
  · rw [entity, ofText?_eq_none hdecimal]

def next (o : Outline) (line : List Char) : Outline :=
  if isSkipped line then o else o.record (trimEnd line)

end Outline

/-- The blocks of a text. -/
def blocks (text : List Char) : List Block :=
  ((lines text).foldl Outline.next {}).blocks

/-! ## Counting -/

/-- Owner, mode and ordinal of the parameters that are recorded. -/
def Draft.numbered (d : Draft) : List (EntityKey × ParameterMode × Nat) :=
  d.passed.map fun p => (p.owner, p.mode, p.ordinal)

/-- The open entity is given further parameters, and they are recorded. -/
structure Draft.Gains (d : Draft) (modes : List ParameterMode) (d' : Draft) : Prop where
  sectionFile : d'.sectionFile = d.sectionFile
  entity : ∀ e ∈ d.entity, ∃ e' ∈ d'.entity, e'.key = e.key ∧ e'.parameters = e.parameters + modes.length
  numbered : ∀ e ∈ d.entity, d'.numbered = d.numbered ++ Artifact.numbered e.key (e.parameters + 1) modes

namespace Draft.Gains

variable {d d' d'' : Draft} {modes modes' : List ParameterMode}

theorem refl (d : Draft) : d.Gains [] d where
  sectionFile := rfl
  entity e he := ⟨e, he, rfl, rfl⟩
  numbered _ _ := (List.append_nil _).symm

/-- The numbering goes on where it was left. -/
theorem trans (h : d.Gains modes d') (h' : d'.Gains modes' d'') : d.Gains (modes ++ modes') d'' where
  sectionFile := h'.sectionFile.trans h.sectionFile
  entity e he := by
    obtain ⟨e₁, he₁, hkey₁, hcount₁⟩ := h.entity e he
    obtain ⟨e₂, he₂, hkey₂, hcount₂⟩ := h'.entity e₁ he₁
    refine ⟨e₂, he₂, hkey₂.trans hkey₁, ?_⟩
    rw [hcount₂, hcount₁, List.length_append, Nat.add_assoc]
  numbered e he := by
    obtain ⟨e₁, he₁, hkey, hcount⟩ := h.entity e he
    rw [h'.numbered e₁ he₁, h.numbered e he, hkey, hcount, numbered_append, List.append_assoc, Nat.add_right_comm]

end Draft.Gains

namespace ReadM

variable {d d' : Draft}

theorem moveTo_gains {index : List Char} (h : moveTo index d = (.ok (), d')) : d.Gains [] d' := by
  obtain ⟨r, d₁, hfound, hmove⟩ := bind_eq_ok h
  obtain rfl := dependencyAt_eq_ok hfound
  obtain rfl : _ = d' := congrArg Prod.snd hmove
  refine { sectionFile := rfl, entity := fun e he => ?_, numbered := fun _ _ => (List.append_nil _).symm }
  exact ⟨{ e with file := r.path }, Option.mem_map_of_mem _ he, rfl, rfl⟩

theorem recordMention_gains {m : Mention} {token : List Char} (h : recordMention m token d = (.ok (), d')) :
    d.Gains (parameterModes.lookup m.tag).toList d' := by
  obtain ⟨line, d₁, hline, h₁⟩ := bind_eq_ok h
  obtain ⟨-, rfl⟩ := number_eq_ok hline
  obtain ⟨column, d₂, hcolumn, h₂⟩ := bind_eq_ok h₁
  obtain ⟨-, rfl⟩ := number_eq_ok hcolumn
  rw [get_bind] at h₂
  cases he : d₂.entity with
  | none =>
    rw [he] at h₂
    cases h₂
  | some e =>
    rw [he] at h₂
    cases hmode : parameterModes.lookup m.tag with
    | some mode =>
      rw [hmode] at h₂
      obtain rfl : _ = d' := congrArg Prod.snd h₂
      refine { sectionFile := rfl, entity := fun e' he' => ?_, numbered := fun e' he' => ?_ }
      all_goals obtain rfl : e = e' := Option.some.inj (he.symm.trans he')
      · exact ⟨_, rfl, rfl, rfl⟩
      · exact List.map_append
    | none =>
      cases hkind : referenceKinds.lookup m.tag with
      | some kind =>
        rw [hmode, hkind] at h₂
        obtain rfl : _ = d' := congrArg Prod.snd h₂
        exact { Draft.Gains.refl d₂ with }
      | none =>
        rw [hmode, hkind] at h₂
        cases h₂

theorem mention_gains {word : List Char} (h : mention word d = (.ok (), d')) :
    d.Gains (mode? word).toList d' := by
  unfold mention at h
  unfold mode?
  cases hm : Mention.ofText? word with
  | none =>
    rw [hm] at h
    cases h
  | some m =>
    rw [hm] at h
    cases hindex : m.dependency with
    | none =>
      simp only [hindex] at h
      exact recordMention_gains h
    | some index =>
      simp only [hindex] at h
      obtain ⟨_, d₁, hmove, hrecord⟩ := bind_eq_ok h
      exact (moveTo_gains hmove).trans (recordMention_gains hrecord)

/-- Words are recorded one after the other. -/
theorem mentions_gains : ∀ {ws : List (List Char)} {d : Draft}, ws.forM mention d = (.ok (), d') →
    d.Gains (ws.filterMap mode?) d'
  | [], d, h => by
    obtain rfl : d = d' := congrArg Prod.snd h
    exact Draft.Gains.refl d
  | w :: ws, d, h => by
    rw [forM_cons] at h
    obtain ⟨_, d₁, hfirst, hrest⟩ := bind_eq_ok h
    have hboth := (mention_gains hfirst).trans (mentions_gains hrest)
    cases hmode : mode? w <;> simpa [hmode] using hboth

end ReadM

/-! ## Lines -/

/-- The draft has recorded the parameters of the blocks, and the open entity is that of the last one. -/
structure Outline.Fits (o : Outline) (d : Draft) : Prop where
  file : o.file = d.sectionFile
  numbered : d.numbered = o.blocks.flatMap Block.parameters
  entity : ∀ e ∈ d.entity, ∃ before b, o.blocks = before ++ [b] ∧ b.key = e.key ∧ b.modes.length = e.parameters

namespace Outline.Fits

variable {o : Outline} {d d' : Draft}

/-- What the open entity gains the last block gains. -/
theorem further (h : o.Fits d) (hopen : d.entity.isSome = true) {modes : List ParameterMode}
    (hgains : d.Gains modes d') : (o.further modes).Fits d' := by
  obtain ⟨e, he⟩ := Option.isSome_iff_exists.1 hopen
  obtain ⟨before, b, hblocks, hkey, hcount⟩ := h.entity e he
  have hlast : o.further modes = { o with blocks := before ++ [{ b with modes := b.modes ++ modes }] } := by
    simp [Outline.further, hblocks]
  rw [hlast]
  refine { file := h.file.trans hgains.sectionFile.symm, numbered := ?_, entity := fun e' he' => ?_ }
  · rw [hgains.numbered e he, h.numbered, hblocks, List.flatMap_append, List.flatMap_append,
      List.append_assoc, List.flatMap_singleton, List.flatMap_singleton, Block.parameters, Block.parameters,
      numbered_append, hkey, hcount, Nat.add_comm 1]
  · obtain ⟨e₁, he₁, hkey₁, hcount₁⟩ := hgains.entity e he
    obtain rfl : e₁ = e' := Option.some.inj (he₁.symm.trans he')
    exact ⟨before, _, rfl, hkey.trans hkey₁.symm, by rw [hcount₁, List.length_append, hcount]⟩

/-- A declared entity opens a block with what its line gives it. -/
theorem opened (h : o.Fits d) {new : Declared} {file : String} {modes : List ParameterMode}
    (hgains : ({ d.declare new with entity := some ⟨new.key, file, 0⟩ } : Draft).Gains modes d') :
    Outline.Fits { o with blocks := o.blocks ++ [⟨new.key, modes⟩] } d' := by
  refine { file := h.file.trans hgains.sectionFile.symm, numbered := ?_, entity := fun e' he' => ?_ }
  · rw [hgains.numbered _ rfl, List.flatMap_append, ← h.numbered, List.flatMap_singleton]
    rfl
  · obtain ⟨e₁, he₁, hkey, hcount⟩ := hgains.entity _ rfl
    obtain rfl : e₁ = e' := Option.some.inj (he₁.symm.trans he')
    exact ⟨o.blocks, _, rfl, hkey.symm, by rw [hcount, Nat.zero_add]⟩

/-- A section closes the last block. -/
theorem entered (h : o.Fits d) (file : String) :
    Outline.Fits { o with file := some file } { d with sectionFile := some file, entity := none } where
  file := rfl
  numbered := h.numbered
  entity _ he := nomatch he

end Outline.Fits

namespace ReadM

variable {o : Outline} {d d' : Draft}

theorem entityLine_fits {line : List Char} (hfits : o.Fits d) (h : entityLine line d = (.ok (), d')) :
    (o.entity line).Fits d' := by
  obtain ⟨file, head, line, column, hfile, hhead, hline, hcolumn, hrest⟩ := entityLine_eq_ok h
  have hkey : o.key? head = some ⟨String.ofList head.name, file, line, column⟩ := by
    rw [Outline.key?, hfits.file, hfile, hline, hcolumn]
  rw [Outline.entity, hhead]
  dsimp only
  rw [hkey]
  exact hfits.opened (mentions_gains hrest)

theorem continuationLine_fits {rest : List Char} (hfits : o.Fits d)
    (h : continuationLine rest d = (.ok (), d')) : (o.further (modesIn rest)).Fits d' := by
  obtain ⟨hopen, hrest⟩ := continuationLine_eq_ok h
  exact hfits.further hopen (mentions_gains hrest)

theorem sectionRecord_fits {body : List Char} (hfits : o.Fits d) (h : sectionRecord body d = (.ok (), d')) :
    Outline.Fits { o with file := (words body)[1]?.map fun file => slashed (String.ofList file) } d' := by
  obtain ⟨index, file, hwords, rfl⟩ := sectionRecord_eq_ok h
  rw [hwords]
  exact hfits.entered _

/-- What is read about the unit leaves the entities as they are. -/
theorem headerRecord_fits {tag : Char} {body : List Char} (htag : tag ≠ 'X') (hfits : o.Fits d)
    (h : headerRecord tag body d = (.ok (), d')) : o.Fits d' := by
  have hheader : Draft.HeaderInvariant o.Fits := {
    version := fun hfits _ => { hfits with }
    unit := fun hfits _ _ => { hfits with }
    depend := fun hfits _ _ _ _ _ _ => { hfits with } }
  have hkeeps := headerRecord_keeps_of_ne hheader htag body d hfits
  rwa [h] at hkeeps

/-- **A line takes a draft that fits the blocks so far to one that fits those with the line.** -/
theorem record_fits {line : List Char} (hfits : o.Fits d) (h : record line d = (.ok (), d')) :
    (o.record line).Fits d' := by
  cases line with
  | nil =>
    obtain rfl : d = d' := congrArg Prod.snd h
    exact hfits
  | cons tag rest =>
    rcases record_eq_ok h with ⟨hdigit, hentity⟩ | ⟨rfl, hmore⟩ | ⟨c, body, htag, rfl, hheader⟩
    · rw [Outline.record_of_digit hdigit]
      exact entityLine_fits hfits hentity
    · exact continuationLine_fits hfits hmore
    · by_cases hsection : tag = 'X'
      · subst hsection
        have hentered := sectionRecord_fits hfits hheader
        rwa [words_trim, ← words_cons_blank (c := ' ') (by decide)] at hentered
      · rw [Outline.record_of_header htag hsection]
        exact headerRecord_fits hsection hfits hheader

end ReadM

/-- The blocks of the lines fit the draft that the lines are read into. -/
theorem Draft.readLines_fits {u : CompilationUnit} : ∀ {lines : List (List Char)} {o : Outline} {d : Draft}
    {number : Nat}, o.Fits d → d.readLines number lines = .ok u →
      ∃ d', d'.toUnit = u ∧ (lines.foldl Outline.next o).Fits d'
  | [], o, d, number, hfits, h => by
    unfold Draft.readLines at h
    split at h
    · cases h
    · exact ⟨d, Except.ok.inj h, hfits⟩
  | line :: lines, o, d, number, hfits, h => by
    unfold Draft.readLines at h
    rw [List.foldl_cons, Outline.next]
    split at h
    next hskip =>
      rw [if_pos hskip]
      exact readLines_fits hfits h
    next hskip =>
      rw [if_neg hskip]
      split at h
      next d₁ hrun => exact readLines_fits (ReadM.record_fits hfits hrun) h
      · cases h

/-! ## Ordinals -/

/-- How many parameters the blocks of an entity give it, block by block. -/
def blockSizes (text : List Char) (owner : EntityKey) : List Nat :=
  ((blocks text).filter (·.key = owner)).map (·.modes.length)

theorem ordinals_numbered (owner key : EntityKey) (n : Nat) (modes : List ParameterMode) :
    ((numbered key n modes).filter (·.1 = owner)).map (·.2.2) =
      if key = owner then List.range' n modes.length else [] := by
  have hfilter : (numbered key n modes).filter (·.1 = owner) = if key = owner then numbered key n modes else [] := by
    unfold numbered
    rw [List.filter_map]
    by_cases hkey : key = owner <;> simp [hkey, Function.comp_def]
  rw [hfilter]
  split
  · unfold numbered
    rw [List.map_map]
    exact List.zipIdx_map_snd ..
  · rfl

/-- The blocks of an owner are numbered each from one. -/
theorem ordinals_blocks (owner : EntityKey) (bs : List Block) :
    ((bs.flatMap Block.parameters).filter (·.1 = owner)).map (·.2.2) =
      ((bs.filter (·.key = owner)).map (·.modes.length)).flatMap (List.range' 1) := by
  induction bs with
  | nil => rfl
  | cons b bs ih =>
    rw [List.flatMap_cons, List.filter_append, List.map_append, ih, Block.parameters, ordinals_numbered]
    by_cases hkey : b.key = owner <;> simp [hkey]

theorem runs_of_empty (sizes : List Nat) :
    (sizes.filter (0 < ·)).flatMap (List.range' 1) = sizes.flatMap (List.range' 1) := by
  induction sizes with
  | nil => rfl
  | cons n sizes ih => cases n <;> simp [ih]

/-- Two runs that start at one and are not empty both have a one, which a single run has once. -/
theorem length_le_one_of_run {sizes : List Nat} (hpositive : ∀ n ∈ sizes, 0 < n) {len : Nat}
    (h : sizes.flatMap (List.range' 1) = List.range' 1 len) : sizes.length ≤ 1 := by
  rcases sizes with _ | ⟨n, _ | ⟨m, sizes⟩⟩
  · exact Nat.zero_le 1
  · exact Nat.le_refl 1
  · have hone : ∀ k ∈ n :: m :: sizes, 1 ∈ List.range' 1 k := fun k hk =>
      List.mem_range'_1.2 ⟨Nat.le_refl 1, Nat.lt_add_of_pos_right (hpositive k hk)⟩
    rw [List.flatMap_cons] at h
    have hnodup : (List.range' 1 n ++ (m :: sizes).flatMap (List.range' 1)).Nodup := by
      rw [h]
      exact List.nodup_range'
    have hrest : 1 ∈ (m :: sizes).flatMap (List.range' 1) :=
      List.mem_flatMap.2 ⟨m, List.mem_cons_self, hone m (by simp)⟩
    exact absurd hrest (List.disjoint_of_nodup_append hnodup (hone n (by simp)))

/-- Runs that each start at one make up a single run exactly if at most one of them is not empty. -/
theorem runs_contiguous_iff (sizes : List Nat) :
    sizes.flatMap (List.range' 1) = List.range' 1 (sizes.flatMap (List.range' 1)).length ↔
      (sizes.filter (0 < ·)).length ≤ 1 := by
  rw [← runs_of_empty]
  refine ⟨length_le_one_of_run fun n hn => by simpa using List.of_mem_filter hn, fun h => ?_⟩
  rcases Nat.le_one_iff_eq_zero_or_eq_one.1 h with hzero | hone
  · rw [List.length_eq_zero_iff.1 hzero]
    rfl
  · obtain ⟨n, hn⟩ := List.length_eq_one_iff.1 hone
    simp [hn]

/-- **The ordinals of an owner start anew with each of its blocks**, in the order of the text; within a
block, over all its lines, they are contiguous. So they are those of one sequence exactly if at most one
block of the owner has parameters. -/
theorem ordinals_contiguous_iff {path checksum : String} {text : List Char} {u : CompilationUnit}
    (h : readText path checksum text = .ok u) :
    (u.parameters.map fun p => (p.owner, p.mode, p.ordinal)) = (blocks text).flatMap Block.parameters ∧
      ∀ owner, u.ordinals owner = (blockSizes text owner).flatMap (List.range' 1) ∧
        (u.ordinals owner = List.range' 1 (u.ordinals owner).length ↔
          ((blockSizes text owner).filter (0 < ·)).length ≤ 1) := by
  have hfirst : Outline.Fits {} { path, checksum } :=
    { file := rfl, numbered := rfl, entity := fun _ he => nomatch he }
  obtain ⟨d, rfl, hfits⟩ := Draft.readLines_fits hfirst h
  have hlist : (d.toUnit.parameters.map fun p => (p.owner, p.mode, p.ordinal)) =
      (blocks text).flatMap Block.parameters := by
    rw [blocks, ← hfits.numbered, Draft.toUnit, List.map_map]
    rfl
  refine ⟨hlist, fun owner => ?_⟩
  have hordinals : d.toUnit.ordinals owner = (blockSizes text owner).flatMap (List.range' 1) := by
    rw [blockSizes, ← ordinals_blocks, ← hlist, List.filter_map, List.map_map]
    rfl
  exact ⟨hordinals, by rw [hordinals]; exact runs_contiguous_iff _⟩

/-! An entity line that is continued, followed by another entity, and a further line of the first entity. -/

namespace TwoLines

/-- The further line gives the words. -/
def text (words : String) : String :=
  "V \"1\"\nU v%b v.adb 00000000\nD v.adb 20240101000000 00000000\nX 1 v.adb\n" ++
    "5V1*F 5>9 5r2\n.6<11 6=9\n8V1*G 8>9\n5V1*F" ++ words

def f : EntityKey :=
  ⟨"F", "v.adb", 5, 1⟩

theorem contiguous_of_use : ∃ u, readText "v.ali" "" (text " 9s3").toList = .ok u ∧
    blockSizes (text " 9s3").toList f = [3, 0] ∧ u.ordinals f = [1, 2, 3] ∧
      u.ordinals f = List.range' 1 (u.ordinals f).length := by
  have hsizes : blockSizes (text " 9s3").toList f = [3, 0] := by decide +kernel
  have hread : (readText "v.ali" "" (text " 9s3").toList).map (·.ordinals f) = .ok [1, 2, 3] := by
    decide +kernel
  cases hu : readText "v.ali" "" (text " 9s3").toList with
  | ok u =>
    rw [hu] at hread
    have hcontiguous := ((ordinals_contiguous_iff hu).2 f).2.2 (by rw [hsizes]; decide)
    exact ⟨u, rfl, hsizes, Except.ok.inj hread, hcontiguous⟩
  | error e =>
    rw [hu] at hread
    cases hread

/-- With a parameter on the further line an ordinal comes twice. -/
theorem not_contiguous_of_parameter : ∃ u, readText "v.ali" "" (text " 9>9").toList = .ok u ∧
    u.ordinals f = [1, 2, 3, 1] ∧ u.ordinals f ≠ List.range' 1 (u.ordinals f).length := by
  have hread : (readText "v.ali" "" (text " 9>9").toList).map (·.ordinals f) = .ok [1, 2, 3, 1] := by
    decide +kernel
  cases hu : readText "v.ali" "" (text " 9>9").toList with
  | ok u =>
    rw [hu] at hread
    have hordinals : u.ordinals f = [1, 2, 3, 1] := Except.ok.inj hread
    exact ⟨u, rfl, hordinals, by rw [hordinals]; decide⟩
  | error e =>
    rw [hu] at hread
    cases hread

end TwoLines

end Artifact

end Crossref
