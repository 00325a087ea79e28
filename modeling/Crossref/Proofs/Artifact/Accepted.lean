/-
Every layout of a document is accepted, and read as what the document means. Each
line takes the draft of what stands before it to the draft of what it adds; the
theorem is the induction over the lines.
-/
import Crossref.Proofs.Artifact.Forms
import Crossref.Proofs.Artifact.Meaning
import Crossref.Proofs.Artifact.Steps
import Crossref.Proofs.Text.Lines

namespace Crossref.Artifact

open Text

namespace ReadM

variable {d : Draft}

theorem number_apply (n : Numeral) : number n.digits d = (.ok (n.value : Int), d) := by
  unfold number
  rw [n.readInt_digits]
  rfl

end ReadM

/-! ## References -/

/-- The dependencies of the document have the files. -/
def Document.Agrees (doc : Document) (fileAt : Numeral → String) : Prop :=
  ∀ i r, doc.dependency? i = some r → fileAt i = r.file

/-- No tag stands for a parameter and for a use. -/
theorem lookup_referenceKinds_of_mode {c : Char} {mode : ParameterMode}
    (h : parameterModes.lookup c = some mode) : referenceKinds.lookup c = none := by
  have hall : (parameterModes.map (·.1)).all (fun c => (referenceKinds.lookup c).isNone) = true := by decide
  have hmem : c ∈ parameterModes.map (·.1) := mem_tags_of_lookup (by rw [h]; rfl)
  exact Option.isNone_iff_eq_none.1 (List.all_eq_true.1 hall c hmem)

theorem Draft.referring_nil {d : Draft} {e : OpenEntity} (he : d.entity = some e)
    (fileAt : Numeral → String) : d.referring fileAt e [] = d := by
  obtain ⟨⟩ := d
  dsimp only at he
  subst he
  simp [referring, fileAfter, locate, usesOf, modesOf, passedOf]

theorem Draft.referring_cons (d : Draft) (fileAt : Numeral → String) (e : OpenEntity) (t : Token)
    (ts : List Token) {e' : OpenEntity} (he' : (d.referring fileAt e [t]).entity = some e') :
    (d.referring fileAt e [t]).referring fileAt e' ts = d.referring fileAt e (t :: ts) := by
  obtain rfl := Option.some.inj he'
  have hlocate := locate_append fileAt e.file [t] ts
  rw [List.singleton_append] at hlocate
  simp only [referring, hlocate, usesOf_append, modesOf_append, passedOf_append, List.length_append,
    List.append_assoc, Nat.add_assoc]
  rfl

namespace ReadM

section
variable {d : Draft} {doc : Document} (hdeps : d.dependencies = doc.dependencies.map (·.dependency))
include hdeps

theorem dependencyAt_apply {i : Numeral} {r : DependencyRecord} (hi : doc.dependency? i = some r) :
    dependencyAt i.digits d = (.ok r.dependency, d) := by
  unfold Document.dependency? at hi
  split at hi
  next hpos =>
    have hindex : ((i.value : Int) - 1).toNat = i.value - 1 := by omega
    unfold dependencyAt
    rw [bind_ok (number_apply i), get_bind, if_pos (by omega), hindex, hdeps, List.getElem?_map, hi]
    rfl
  next => cases hi

theorem moveTo_apply {i : Numeral} {r : DependencyRecord} (hi : doc.dependency? i = some r) :
    moveTo i.digits d =
      (.ok (), { d with entity := d.entity.map fun e => { e with file := r.file } }) := by
  unfold moveTo
  rw [bind_ok (dependencyAt_apply hdeps hi), modify_apply]
  rfl

end

/-- A reference is recorded as a use or as a parameter, where the open entity is. -/
theorem recordMention_apply {d : Draft} {e : OpenEntity} (he : d.entity = some e) (t : Token)
    (dependency : Option (List Char)) (token : List Char) :
    recordMention ⟨dependency, t.line.digits, t.tag, t.column.digits⟩ token d =
      let m : Located := (⟨e.file, t.line.value, t.column.value⟩, t.tag)
      (.ok (), { d with
        entity := some { e with parameters := e.parameters + (modesOf [m]).length }
        uses := d.uses ++ usesOf e.key [m]
        passed := d.passed ++ passedOf e.key e.parameters [m] }) := by
  unfold recordMention
  rw [bind_ok (number_apply t.line), bind_ok (number_apply t.column), get_bind, he]
  cases hmode : parameterModes.lookup t.tag with
  | some mode =>
    have hkind := lookup_referenceKinds_of_mode hmode
    simp [modify_apply, modesOf, usesOf, passedOf, hmode, hkind]
  | none =>
    have hknown := t.known
    rw [hmode, Option.isSome_none, Bool.false_or, Option.isSome_iff_exists] at hknown
    obtain ⟨kind, hkind⟩ := hknown
    simp [modify_apply, modesOf, usesOf, passedOf, hmode, hkind, he]

variable {doc : Document} {fileAt : Numeral → String} (hagrees : doc.Agrees fileAt)
include hagrees

theorem mention_apply {d : Draft} (hdeps : d.dependencies = doc.dependencies.map (·.dependency))
    {e : OpenEntity} (he : d.entity = some e) {t : Token}
    (hnames : ∀ i ∈ t.dependency, (doc.dependency? i).isSome = true) :
    mention t.text d = (.ok (), d.referring fileAt e [t]) := by
  unfold mention
  rw [ofText?_token]
  dsimp only
  cases hd : t.dependency with
  | none =>
    have hfile : t.fileFrom fileAt e.file = e.file := by rw [Token.fileFrom, hd]; rfl
    refine (recordMention_apply he t _ t.text).trans ?_
    simp only [Draft.referring, fileAfter, List.foldl_cons, List.foldl_nil, locate, hfile]
  | some i =>
    obtain ⟨r, hr⟩ := Option.isSome_iff_exists.1 (hnames i hd)
    have hfile : t.fileFrom fileAt e.file = r.file := by
      rw [Token.fileFrom, hd, Option.map_some, hagrees i r hr]
      rfl
    have hmoved : ({ d with entity := d.entity.map fun e => { e with file := r.file } } : Draft).entity =
        some { e with file := r.file } := by
      rw [he]
      rfl
    dsimp only [Option.map_some]
    rw [bind_ok (moveTo_apply hdeps hr), recordMention_apply hmoved]
    simp only [Draft.referring, fileAfter, List.foldl_cons, List.foldl_nil, locate, hfile]

/-- **References are recorded one after the other**, each in the file that those before it lead to. -/
theorem mentions_apply {ts : List Token} (hnames : doc.Names ts) : ∀ {d : Draft} {e : OpenEntity},
    d.dependencies = doc.dependencies.map (·.dependency) → d.entity = some e →
      (ts.map (·.text)).forM mention d = (.ok (), d.referring fileAt e ts) := by
  induction ts with
  | nil =>
    intro d e _ he
    rw [Draft.referring_nil he]
    rfl
  | cons t ts ih =>
    intro d e hdeps he
    have hfirst := mention_apply hagrees hdeps he fun i hi => hnames t (by simp) i hi
    have hrest := ih (fun t' ht' => hnames t' (List.mem_cons_of_mem _ ht'))
      (d := d.referring fileAt e [t]) hdeps rfl
    rw [List.map_cons, forM_cons, bind_ok hfirst, hrest, Draft.referring_cons d fileAt e t ts rfl]

end ReadM

/-! ## Records -/

namespace ReadM

variable {d : Draft}

/-- A line with a letter that opens a record is read as that record. -/
theorem record_header {tag : Char} {body : List Char} (htag : tag ∈ ['V', 'U', 'D', 'X', 'A', 'W'])
    (hversion : d.version.isNone = true → tag = 'V') (hbody : ∃ c ∈ body, isBlank c = false) :
    record (trimEnd (tag :: ' ' :: body)) d = headerRecord tag (trim (trimEnd body)) d := by
  have hdigit : isDigitLike tag = false := by
    have hall : ['V', 'U', 'D', 'X', 'A', 'W'].all (fun c => !isDigitLike c) = true := by decide
    simpa using List.all_eq_true.1 hall tag htag
  have hdot : tag ≠ '.' := by
    rintro rfl
    exact absurd htag (by decide)
  have hfirst : (d.version.isNone && tag ≠ 'V') = false := by
    cases hv : d.version.isNone with
    | false => rfl
    | true => simp [hversion hv]
  have hknown : (!(['V', 'U', 'D', 'X', 'A', 'W'].contains tag)) = false := by
    rw [List.contains_iff_mem.2 htag]
    rfl
  have htrim := trimEnd_append hbody [tag, ' ']
  obtain ⟨c, r, hcr⟩ := List.exists_cons_of_ne_nil (trimEnd_ne_nil hbody)
  simp only [List.cons_append, List.nil_append] at htrim
  rw [htrim, hcr, record, get_bind, hfirst]
  simp only [hdigit, hdot, hknown, Bool.false_eq_true, if_false]

/-- A record with words is read from the words. -/
theorem record_words {tag : Char} {ws : List Word} {line : List Char}
    (htag : tag ∈ ['V', 'U', 'D', 'X', 'A', 'W']) (hversion : d.version.isSome = true) (hne : ws ≠ [])
    (h : IsRecord tag ws line) :
    ∃ body, words body = ws.map (·.text) ∧ record (trimEnd line) d = headerRecord tag body d := by
  obtain ⟨body, rfl, hspaced⟩ := h
  refine ⟨trim (trimEnd body), ?_, record_header htag (fun hnone => ?_) (hspaced.solid hne)⟩
  · rw [words_trim, words_trimEnd, hspaced.words_eq]
  · rw [Option.isNone_iff_eq_none.1 hnone] at hversion
    cases hversion

theorem checkChecksum_apply {text : List Char} (h : isChecksum text = true) :
    checkChecksum text d = (.ok (), d) := by
  rw [checkChecksum, if_pos h]
  rfl

theorem versionRecord_apply (hnone : d.version = none) (v : Version) :
    versionRecord ('"' :: (v.text ++ ['"'])) d =
      (.ok (), { d with version := some (String.ofList v.text) }) := by
  rw [versionRecord, get_bind, hnone]
  simp only [Option.isSome_none, Bool.false_eq_true, if_false, version?_written]
  rfl

theorem unitRecord_apply (u : UnitRecord) {body : List Char} (h : words body = u.words.map (·.text)) :
    unitRecord body d =
      (.ok (), { d with
        unitName := if d.unitName = "" then String.ofList u.unitName.text else d.unitName
        sourceFiles := if d.sourceFiles.contains u.file then d.sourceFiles else d.sourceFiles ++ [u.file] }) := by
  simp only [unitRecord, h, UnitRecord.words, List.map_cons, List.map_nil]
  rw [bind_ok (checkChecksum_apply u.hex), modify_apply]
  rfl

theorem addDependency_apply (r : DependencyRecord) :
    addDependency r.path.text r.stamp.text r.checksum.text ((r.unitName.map (·.text)).getD []) d =
      (.ok (), { d with dependencies := d.dependencies ++ [r.dependency] }) := by
  have hname : String.ofList ((r.unitName.map (·.text)).getD []) = r.dependency.unitName := by
    unfold DependencyRecord.dependency
    cases r.unitName <;> rfl
  simp only [addDependency, r.dated, Bool.not_true, Bool.false_eq_true, if_false]
  rw [bind_ok (checkChecksum_apply r.hex), modify_apply, hname]
  rfl

theorem dependencyRecord_apply (r : DependencyRecord) {body : List Char}
    (h : words body = r.words.map (·.text)) :
    dependencyRecord body d = (.ok (), { d with dependencies := d.dependencies ++ [r.dependency] }) := by
  rw [← addDependency_apply r, dependencyRecord, h, DependencyRecord.words]
  cases r.unitName <;> rfl

theorem sectionRecord_apply {doc : Document} (hdeps : d.dependencies = doc.dependencies.map (·.dependency))
    {s : Section} (hfile : (doc.dependency? s.index).map (·.file) = some s.path) {body : List Char}
    (h : words body = [s.index.word, s.file].map (·.text)) :
    sectionRecord body d = (.ok (), { d with sectionFile := some s.path, entity := none }) := by
  obtain ⟨r, hr, hpath⟩ := Option.map_eq_some_iff.1 hfile
  have hsame : ¬r.dependency.path ≠ slashed (String.ofList s.file.text) := not_not_intro hpath
  simp only [sectionRecord, h, List.map_cons, List.map_nil]
  change (dependencyAt s.index.digits >>= _) d = _
  rw [bind_ok (dependencyAt_apply hdeps hr)]
  rw [if_neg hsame]
  rfl

/-- **An entity line declares its entity and opens it** for the references that follow. -/
theorem entityLine_apply {doc : Document} {fileAt : Numeral → String} (hagrees : doc.Agrees fileAt)
    (hdeps : d.dependencies = doc.dependencies.map (·.dependency)) {file : String}
    (hfile : d.sectionFile = some file) {e : Entry} (hnames : doc.Names e.tokens) {rest : List Char}
    (hrest : ∀ c ∈ rest.head?, isBlank c = true) (hwords : words rest = e.tokens.map (·.text)) :
    entityLine (e.head ++ rest) d =
      let first : OpenEntity := ⟨e.key file, file, 0⟩
      (.ok (), { d.declare (e.declared file) with entity := some first }.referring fileAt first e.tokens) := by
  rw [entityLine, get_bind, hfile]
  dsimp only
  rw [ofText?_head e hrest]
  dsimp only
  rw [bind_ok (number_apply e.line), bind_ok (number_apply e.column), bind_ok (modify_apply _), hwords]
  exact mentions_apply hagrees hnames hdeps rfl

theorem continuationLine_apply {doc : Document} {fileAt : Numeral → String} (hagrees : doc.Agrees fileAt)
    (hdeps : d.dependencies = doc.dependencies.map (·.dependency)) {e : OpenEntity}
    (he : d.entity = some e) {ts : List Token} (hnames : doc.Names ts) {rest : List Char}
    (hwords : words rest = ts.map (·.text)) :
    continuationLine rest d = (.ok (), d.referring fileAt e ts) := by
  have hopen : ¬d.entity.isNone = true := by simp [he]
  rw [continuationLine, get_bind, if_neg hopen, hwords]
  exact mentions_apply hagrees hnames hdeps he

theorem record_digit (hversion : d.version.isSome = true) {c : Char} (hc : c.isDigit = true)
    (line : List Char) : record (c :: line) d = entityLine (c :: line) d := by
  have hfirst : (d.version.isNone && c ≠ 'V') = false := by
    rw [Option.isNone_eq_false_iff.2 hversion]
    rfl
  have hdigit : isDigitLike c = true := by rw [isDigitLike, isDecimal_of_isDigit hc]; rfl
  rw [record.eq_def]
  dsimp only
  rw [get_bind, hfirst]
  simp only [hdigit, Bool.false_eq_true, if_false, if_true]

theorem record_dot (hversion : d.version.isSome = true) (rest : List Char) :
    record ('.' :: rest) d = continuationLine rest d := by
  have hfirst : (d.version.isNone && '.' ≠ 'V') = false := by
    rw [Option.isNone_eq_false_iff.2 hversion]
    rfl
  have hdigit : isDigitLike '.' = false := by decide
  rw [record.eq_def]
  dsimp only
  rw [get_bind, hfirst]
  simp only [hdigit, Bool.false_eq_true, if_false, if_true]

end ReadM

/-! ## Lines -/

theorem isSkipped_of_solid {c : Char} (hblank : isBlank c = false) (hhyphen : c ≠ '-') (line : List Char) :
    isSkipped (c :: line) = false := by
  have hcomment : isComment (c :: line) = false := by
    unfold isComment
    split
    next heq => exact absurd (List.cons.inj heq).1 hhyphen
    next => rfl
  simp [isSkipped, hblank, hcomment]

namespace Draft

/-- The lines are read without a fault and lead from the first draft to the second. -/
def Accepts (d : Draft) (ls : List (List Char)) (d' : Draft) : Prop :=
  ∀ number rest, d.readLines number (ls ++ rest) = d'.readLines (number + ls.length) rest

variable {d d' d'' : Draft} {ls ls' : List (List Char)} {line : List Char}

theorem Accepts.trans (h : d.Accepts ls d') (h' : d'.Accepts ls' d'') : d.Accepts (ls ++ ls') d'' := by
  intro number rest
  rw [List.append_assoc, h, h', List.length_append, Nat.add_assoc]

theorem accepts_skipped (h : isSkipped line = true) : d.Accepts [line] d := by
  intro number rest
  rw [List.singleton_append, readLines, if_pos h]
  rfl

theorem accepts_record (h : isSkipped line = false) (hrecord : ReadM.record (trimEnd line) d = (.ok (), d')) :
    d.Accepts [line] d' := by
  intro number rest
  have hrun : (ReadM.record (trimEnd line)).run.run d = (.ok (), d') := hrecord
  rw [List.singleton_append, readLines, if_neg (by simp [h]), hrun]
  rfl

end Draft

theorem Document.draft_version (doc : Document) (fileAt : Numeral → String) (path checksum : String) :
    (doc.draft fileAt path checksum).version.isSome = true := rfl

/-- An entry starts with a digit. -/
theorem Entry.exists_head (e : Entry) : ∃ c r, c.isDigit = true ∧ e.head = c :: r := by
  obtain ⟨c, r, hcr⟩ := List.exists_cons_of_ne_nil e.line.nonempty
  have hdigit : c.isDigit = true := e.line.plain c (by simp [hcr])
  have hhead : e.head =
      c :: (r ++ e.tag :: (e.column.digits ++ (if e.libraryLevel then '*' else ' ') :: e.name.text)) := by
    rw [Entry.head, hcr, List.cons_append]
  exact ⟨c, _, hdigit, hhead⟩

theorem Entry.trimEnd_head (e : Entry) (rest : List Char) :
    trimEnd (e.head ++ rest) = e.head ++ trimEnd rest := by
  let front := e.line.digits ++ e.tag :: (e.column.digits ++ [if e.libraryLevel then '*' else ' '])
  have hhead : e.head = front ++ e.name.text := by simp [Entry.head, front]
  rw [hhead]
  exact trimEnd_append_word front e.name rest

/-- Trimming a text at the end does not change how it starts. -/
theorem head?_trimEnd {s : List Char} : ∀ c ∈ (trimEnd s).head?, c ∈ s.head? := by
  intro c hc
  obtain ⟨blanks, -, hs⟩ := exists_trimEnd s
  rw [hs, List.head?_append, Option.mem_def.1 hc]
  rfl

/-! ## Layouts -/

section
variable {doc : Document} {fileAt : Numeral → String} {path checksum : String} {line : List Char}

theorem accepts_version {v : Version} {gap gap' : List Char} (hgap : ∀ c ∈ gap, isGap c = true)
    (hgap' : ∀ c ∈ gap', isGap c = true) :
    Draft.Accepts { path, checksum } ['V' :: ' ' :: (gap ++ '"' :: (v.text ++ '"' :: gap'))]
      (({ version := v } : Document).draft fileAt path checksum) := by
  let body := gap ++ '"' :: (v.text ++ '"' :: gap')
  have hquote : isBlank '"' = false := by decide
  have htrim : trim (trimEnd body) = '"' :: (v.text ++ ['"']) := by
    have hend : trimEnd body = gap ++ '"' :: (v.text ++ ['"']) := by
      have hbody : body = (gap ++ '"' :: v.text) ++ '"' :: gap' := by simp [body]
      rw [hbody, trimEnd_append_solid hquote, trimEnd_of_blank fun c hc => isBlank_of_isGap (hgap' c hc)]
      simp
    have hstart : trimStart (trimEnd body) = '"' :: (v.text ++ ['"']) := by
      rw [hend, trimStart, dropWhile_append_of_all fun c hc => isBlank_of_isGap (hgap c hc),
        List.dropWhile_cons, if_neg (by simp [hquote])]
    have hlast := trimEnd_append_solid hquote ('"' :: v.text) []
    rw [trim, hstart]
    exact hlast
  refine Draft.accepts_record (isSkipped_of_solid (by decide) (by decide) _) ?_
  have hsolid : ∃ c ∈ body, isBlank c = false := ⟨'"', by simp [body], hquote⟩
  have hheader (d : Draft) :
      ReadM.record (trimEnd ('V' :: ' ' :: body)) d = ReadM.headerRecord 'V' (trim (trimEnd body)) d :=
    ReadM.record_header (by decide) (fun _ => rfl) hsolid
  rw [hheader, htrim]
  exact ReadM.versionRecord_apply rfl v

theorem accepts_unit {u : UnitRecord} (hline : IsRecord 'U' u.words line) :
    (doc.draft fileAt path checksum).Accepts [line]
      (({ doc with units := doc.units ++ [u] } : Document).draft fileAt path checksum) := by
  obtain ⟨body, hwords, hrecord⟩ := ReadM.record_words (by decide) (doc.draft_version fileAt path checksum)
    (by simp [UnitRecord.words]) hline
  obtain ⟨text, rfl, -⟩ := hline
  refine Draft.accepts_record (isSkipped_of_solid (by decide) (by decide) _) ?_
  rw [hrecord, doc.draft_unit fileAt path checksum u]
  exact ReadM.unitRecord_apply u hwords

theorem accepts_dependency {r : DependencyRecord} (hline : IsRecord 'D' r.words line) :
    (doc.draft fileAt path checksum).Accepts [line]
      (({ doc with dependencies := doc.dependencies ++ [r] } : Document).draft fileAt path checksum) := by
  obtain ⟨body, hwords, hrecord⟩ := ReadM.record_words (by decide) (doc.draft_version fileAt path checksum)
    (by simp [DependencyRecord.words]) hline
  obtain ⟨text, rfl, -⟩ := hline
  refine Draft.accepts_record (isSkipped_of_solid (by decide) (by decide) _) ?_
  rw [hrecord, doc.draft_dependency fileAt path checksum r]
  exact ReadM.dependencyRecord_apply r hwords

theorem accepts_section {s : Section} (hnew : s.entries = [])
    (hfile : (doc.dependency? s.index).map (·.file) = some s.path)
    (hline : IsRecord 'X' [s.index.word, s.file] line) :
    (doc.draft fileAt path checksum).Accepts [line]
      (({ doc with sections := doc.sections ++ [s] } : Document).draft fileAt path checksum) := by
  obtain ⟨body, hwords, hrecord⟩ := ReadM.record_words (by decide) (doc.draft_version fileAt path checksum)
    (by simp) hline
  obtain ⟨text, rfl, -⟩ := hline
  refine Draft.accepts_record (isSkipped_of_solid (by decide) (by decide) _) ?_
  rw [hrecord, doc.draft_section fileAt path checksum hnew]
  exact ReadM.sectionRecord_apply rfl hfile hwords

theorem accepts_idle {d : Draft} (hversion : d.version.isSome = true) (hline : IsIdle line) :
    d.Accepts [line] d := by
  cases hline with
  | blank h =>
    refine Draft.accepts_skipped ?_
    rw [isSkipped, List.all_eq_true.2 fun c hc => isBlank_of_isGap (h c hc)]
    rfl
  | comment h => exact Draft.accepts_skipped (by simp [isSkipped, isComment])
  | @other tag s htag hne h =>
    have hletter : tag ∈ ['V', 'U', 'D', 'X', 'A', 'W'] ∧ isBlank tag = false ∧ tag ≠ '-' := by
      rcases htag with rfl | rfl <;> decide
    refine Draft.accepts_record (isSkipped_of_solid hletter.2.1 hletter.2.2 _) ?_
    rw [ReadM.record_header hletter.1 (fun hnone => ?_) hne]
    · rcases htag with rfl | rfl <;> rfl
    · rw [Option.isNone_iff_eq_none.1 hnone] at hversion
      cases hversion

section
variable (hagrees : doc.Agrees fileAt) {before : List Section} {s : Section} {es : List Entry} {e : Entry}
include hagrees

theorem accepts_entity (hnames : doc.Names e.tokens) (hline : IsEntity e line) :
    ((doc.ending before s es).draft fileAt path checksum).Accepts [line]
      ((doc.ending before s (es ++ [e])).draft fileAt path checksum) := by
  obtain ⟨rest, rfl, hspaced, hrest⟩ := hline
  obtain ⟨c, r, hdigit, hhead⟩ := e.exists_head
  have hwords : words (trimEnd rest) = e.tokens.map (·.text) := by
    rw [words_trimEnd, hspaced.words_eq, List.map_map]
    rfl
  have hfile : ((doc.ending before s es).draft fileAt path checksum).sectionFile = some s.path := by
    simp [Document.draft, Document.ending, Section.path]
  have hhyphen : c ≠ '-' := by
    rintro rfl
    exact absurd hdigit (by decide)
  refine Draft.accepts_record ?_ ?_
  · rw [hhead]
    exact isSkipped_of_solid (isBlank_of_isDigit hdigit) hhyphen _
  · have hentity := ReadM.entityLine_apply hagrees (d := (doc.ending before s es).draft fileAt path checksum) rfl
      hfile hnames (fun c hc => hrest c (head?_trimEnd c hc)) hwords
    rw [e.trimEnd_head, doc.draft_entity fileAt path checksum before s es e, ← hentity, hhead]
    exact ReadM.record_digit rfl hdigit _

theorem accepts_continuation {ts : List Token} (hnames : doc.Names ts) (hline : IsContinuation ts line) :
    ((doc.ending before s (es ++ [e])).draft fileAt path checksum).Accepts [line]
      ((doc.ending before s (es ++ [{ e with tokens := e.tokens ++ ts }])).draft fileAt path checksum) := by
  obtain ⟨rest, rfl, hspaced⟩ := hline
  have hwords : words (trimEnd rest) = ts.map (·.text) := by
    rw [words_trimEnd, hspaced.words_eq, List.map_map]
    rfl
  have hentity := doc.openEntity_snoc fileAt before s es e
  have hdot : isBlank '.' = false := by decide
  have htrim := trimEnd_append_solid hdot [] rest
  refine Draft.accepts_record (isSkipped_of_solid hdot (by decide) _) ?_
  rw [List.nil_append, List.nil_append] at htrim
  rw [htrim, ReadM.record_dot rfl, doc.draft_continuation fileAt path checksum before s es e ts]
  exact ReadM.continuationLine_apply hagrees rfl hentity hnames hwords

end

end

/-- **Reading the lines of a document leads to its draft.** -/
theorem Document.Laid.accepts {doc : Document} {ls : List (List Char)} (h : doc.Laid ls)
    (path checksum : String) {fileAt : Numeral → String} (hagrees : doc.Agrees fileAt) :
    Draft.Accepts { path, checksum } ls (doc.draft fileAt path checksum) := by
  induction h with
  | version hgap hgap' => exact accepts_version hgap hgap'
  | unit _ hline ih => exact (ih hagrees).trans (accepts_unit hline)
  | @dependency doc ls r line _ hline ih =>
    -- the dependencies that were there keep their numbers
    have hbefore : doc.Agrees fileAt := by
      intro i r' hi
      refine hagrees i r' ?_
      unfold dependency? at hi ⊢
      split at hi
      next hpos =>
        rw [if_pos hpos, List.getElem?_append_left (List.getElem?_eq_some_iff.1 hi).1]
        exact hi
      next => cases hi
    exact (ih hbefore).trans (accepts_dependency hline)
  | enter _ hnew hfile hline ih => exact (ih hagrees).trans (accepts_section hnew hfile hline)
  | entity _ hnames hline ih => exact (ih hagrees).trans (accepts_entity hagrees hnames hline)
  | continuation _ hnames hline ih => exact (ih hagrees).trans (accepts_continuation hagrees hnames hline)
  | idle _ hline ih => exact (ih hagrees).trans (accepts_idle rfl hline)

/-! No line has a break in it. -/

theorem Numeral.no_break (n : Numeral) : ∀ c ∈ n.digits, isLineBreak c = false :=
  fun c hc => isLineBreak_of_not_blank (n.word.solid c hc)

theorem Entry.no_break (e : Entry) : ∀ c ∈ e.head, isLineBreak c = false := by
  intro c hc
  simp only [Entry.head, List.mem_append, List.mem_cons] at hc
  rcases hc with hc | rfl | hc | rfl | hc
  · exact Numeral.no_break e.line c hc
  · exact isLineBreak_of_isKindTag e.kind
  · exact Numeral.no_break e.column c hc
  · split <;> decide
  · exact isLineBreak_of_not_blank (e.name.solid c hc)

theorem IsIdle.no_break {line : List Char} (h : IsIdle line) : ∀ c ∈ line, isLineBreak c = false := by
  cases h with
  | blank h => exact fun c hc => isLineBreak_of_isGap (h c hc)
  | comment h =>
    simp only [List.mem_cons]
    rintro c (rfl | rfl | hc)
    · decide
    · decide
    · exact h c hc
  | other htag _ h =>
    simp only [List.mem_cons]
    rintro c (rfl | rfl | hc)
    · rcases htag with rfl | rfl <;> decide
    · decide
    · exact h c hc

theorem IsRecord.no_break {tag : Char} {ws : List Word} {line : List Char} (h : IsRecord tag ws line)
    (htag : isLineBreak tag = false) : ∀ c ∈ line, isLineBreak c = false := by
  obtain ⟨body, rfl, hspaced⟩ := h
  simp only [List.mem_cons]
  rintro c (rfl | rfl | hc)
  · exact htag
  · decide
  · exact hspaced.no_break c hc

theorem Document.Laid.no_break {doc : Document} {ls : List (List Char)} (h : doc.Laid ls) :
    ∀ line ∈ ls, ∀ c ∈ line, isLineBreak c = false := by
  have hsnoc {ls : List (List Char)} {line : List Char} (hls : ∀ l ∈ ls, ∀ c ∈ l, isLineBreak c = false)
      (hline : ∀ c ∈ line, isLineBreak c = false) : ∀ l ∈ ls ++ [line], ∀ c ∈ l, isLineBreak c = false :=
    List.forall_mem_append.2 ⟨hls, List.forall_mem_singleton.2 hline⟩
  induction h with
  | @version v gap gap' hgap hgap' =>
    rw [List.forall_mem_singleton]
    simp only [List.mem_cons, List.mem_append]
    rintro c (rfl | rfl | hc | rfl | hc | rfl | hc)
    · decide
    · decide
    · exact isLineBreak_of_isGap (hgap c hc)
    · decide
    · exact v.unbroken c hc
    · decide
    · exact isLineBreak_of_isGap (hgap' c hc)
  | unit _ hline ih => exact hsnoc ih (hline.no_break (by decide))
  | dependency _ hline ih => exact hsnoc ih (hline.no_break (by decide))
  | enter _ _ _ hline ih => exact hsnoc ih (hline.no_break (by decide))
  | entity _ _ hline ih =>
    obtain ⟨rest, rfl, hspaced, -⟩ := hline
    refine hsnoc ih fun c hc => ?_
    rcases List.mem_append.1 hc with hc | hc
    · exact Entry.no_break _ c hc
    · exact hspaced.no_break c hc
  | continuation _ _ hline ih =>
    obtain ⟨rest, rfl, hspaced⟩ := hline
    refine hsnoc ih fun c hc => ?_
    rcases List.mem_cons.1 hc with rfl | hc
    · decide
    · exact hspaced.no_break c hc
  | idle _ hline ih => exact hsnoc ih hline.no_break

/-- **Every text of a document is accepted, and read as what the document means**, also from the
bytes of the text. -/
theorem reads_meaning {doc : Document} {ls : List (List Char)} {text : List Char} (hlaid : doc.Laid ls)
    (hjoined : Joined ls text) (path : String) :
    (∀ checksum, readText path checksum text = .ok (doc.meaning path checksum)) ∧
      ∀ content, decodeUtf8 content = .ok text →
        readBytes path content = .ok (doc.meaning path (Digest.checksum content)) := by
  have htext (checksum : String) : readText path checksum text = .ok (doc.meaning path checksum) := by
    have hagrees : doc.Agrees doc.fileAt := by
      intro i r hi
      rw [Document.fileAt, hi]
      rfl
    have haccepts := hlaid.accepts path checksum hagrees 0 []
    rw [List.append_nil] at haccepts
    have hversion := Option.isNone_eq_false_iff.2 (doc.draft_version doc.fileAt path checksum)
    rw [readText, lines_of_joined hjoined hlaid.no_break, haccepts, Draft.readLines, hversion]
    exact congrArg Except.ok (doc.toUnit_draft path checksum)
  refine ⟨htext, fun content hcontent => ?_⟩
  rw [readBytes, hcontent]
  exact htext _

/-! An artifact with one procedure. Its last reference goes on in a further line and stays in the
file that the reference before it named. -/

namespace OneProcedure

def word (s : String) (hne : s.toList ≠ []) (h : s.toList.all (fun c => !isBlank c) = true) : Word :=
  ⟨s.toList, hne, by simpa using h⟩

def numeral (c : Char) (h : c.isDigit = true) : Numeral :=
  ⟨[c], by simp, by simpa using h, by simp [maxDigits]⟩

theorem unbroken {s : List Char} (h : s.all (fun c => !isLineBreak c) = true) :
    ∀ c ∈ s, isLineBreak c = false := by
  simpa using h

def unit : UnitRecord where
  unitName := word "pkg%s" (by decide) (by decide)
  source := word "pkg.ads" (by decide) (by decide)
  checksum := word "0A1B2C3D" (by decide) (by decide)
  hex := by decide

def dependency (path : Word) : DependencyRecord where
  path := path
  stamp := word "20240101120000" (by decide) (by decide)
  checksum := word "0A1B2C3D" (by decide) (by decide)
  unitName := none
  dated := by decide
  hex := by decide

def first : DependencyRecord :=
  dependency (word "pkg.ads" (by decide) (by decide))

def second : DependencyRecord :=
  dependency (word "util.ads" (by decide) (by decide))

def opened : Section where
  index := numeral '1' (by decide)
  file := word "pkg.ads" (by decide) (by decide)
  entries := []

def entry : Entry where
  line := numeral '5' (by decide)
  tag := 'U'
  column := numeral '4' (by decide)
  libraryLevel := true
  name := word "Do_It" (by decide) (by decide)
  tokens :=
    [⟨none, numeral '5' (by decide), '>', numeral '9' (by decide), by decide⟩,
      ⟨some (numeral '2' (by decide)), numeral '7' (by decide), 'r', numeral '3' (by decide), by decide⟩]
  kind := by decide

def further : List Token :=
  [⟨none, numeral '8' (by decide), 's', numeral '9' (by decide), by decide⟩]

/-- The document without its section. -/
def base : Document where
  version := ⟨"5.2".toList, by simp, unbroken (by decide)⟩
  units := [unit]
  dependencies := [first, second]

def doc : Document :=
  base.ending [] opened [{ entry with tokens := entry.tokens ++ further }]

def lines : List (List Char) :=
  ["V \"5.2\"".toList, "-- generated".toList, "U pkg%s pkg.ads 0A1B2C3D".toList,
    "D pkg.ads 20240101120000 0A1B2C3D".toList, "D util.ads 20240101120000 0A1B2C3D".toList, "X 1 pkg.ads".toList,
    "5U4*Do_It 5>9 2|7r3".toList, "".toList, "W util%s".toList, ". 8s9".toList]

theorem isRecord {tag : Char} {w : Word} {ws : List Word} {line : List Char}
    (h : line = tag :: ' ' :: (w.text ++ Spaced.single ws)) : IsRecord tag (w :: ws) line :=
  ⟨_, h, Spaced.spaced_first w ws⟩

theorem laid_base : (base.ending [] opened []).Laid (lines.take 6) := by
  have h1 : Document.Laid { version := base.version } (lines.take 1) :=
    @Document.Laid.version base.version [] [] (by simp) (by simp)
  have h2 : Document.Laid { version := base.version } (lines.take 2) :=
    .idle h1 (@IsIdle.comment " generated".toList (unbroken (by decide)))
  have h3 : Document.Laid { version := base.version, units := [unit] } (lines.take 3) :=
    .unit h2 (isRecord (by decide))
  have h4 : Document.Laid { base with dependencies := [first] } (lines.take 4) :=
    .dependency h3 (isRecord (by decide))
  have h5 : base.Laid (lines.take 5) := .dependency h4 (isRecord (by decide))
  exact .enter h5 rfl (by decide) (isRecord (by decide))

theorem laid : doc.Laid lines := by
  have hentity : IsEntity entry "5U4*Do_It 5>9 2|7r3".toList :=
    ⟨_, by decide, Spaced.spaced_single _, Spaced.head?_single _⟩
  have hcontinuation : IsContinuation further ". 8s9".toList := ⟨_, by decide, Spaced.spaced_single _⟩
  have h7 : (base.ending [] opened [entry]).Laid (lines.take 7) := .entity laid_base (by decide) hentity
  have h8 : (base.ending [] opened [entry]).Laid (lines.take 8) := .idle h7 (.blank (by simp))
  have h9 : (base.ending [] opened [entry]).Laid (lines.take 9) :=
    .idle h8 (@IsIdle.other 'W' "util%s".toList (.inr rfl) ⟨'u', by decide, by decide⟩ (unbroken (by decide)))
  exact @Document.Laid.continuation base _ [] opened [] entry further _ h9 (by decide) hcontinuation

def key : EntityKey :=
  ⟨"Do_It", "pkg.ads", 5, 4⟩

theorem read_with_references :
    doc.Laid lines ∧ Joined lines (lines.flatMap (· ++ ['\n'])) ∧
      readText "pkg.ali" "" (lines.flatMap (· ++ ['\n'])) = .ok (doc.meaning "pkg.ali" "") ∧
      (doc.meaning "pkg.ali" "").declarations = [⟨key, "procedure", true, true⟩] ∧
      (doc.meaning "pkg.ali" "").references =
        [⟨key, ⟨"util.ads", 7, 3⟩, .read, none⟩, ⟨key, ⟨"util.ads", 8, 9⟩, .call, none⟩] ∧
      (doc.meaning "pkg.ali" "").parameters = [⟨key, ⟨"", "pkg.ads", 5, 9⟩, .input, 1⟩] := by
  refine ⟨laid, joined_lineFeeds lines, ?_, by decide +kernel, by decide +kernel, by decide +kernel⟩
  exact (reads_meaning laid (joined_lineFeeds lines) "pkg.ali").1 ""

end OneProcedure

end Crossref.Artifact
