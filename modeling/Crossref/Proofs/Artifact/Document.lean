/-
What an artifact says, apart from how it is laid out, and the texts that say it. A
document has its version, its unit records, its dependencies, and sections of
entities with their references. `Document.Laid` builds the lines that say it, one
after the other: the version comes first, a dependency comes before it is used, and
the references of an entity may go on in further lines, with idle lines and other
records in between.
-/
import Crossref.Artifact.Reader
import Crossref.Proofs.Text.Numeral

namespace Crossref.Artifact

open Text

/-! ## Documents -/

/-- What may stand between the quotes of the version. -/
structure Version where
  text : List Char
  unquoted : ∀ c ∈ text, c ≠ '"'
  unbroken : ∀ c ∈ text, isLineBreak c = false
  deriving DecidableEq

structure UnitRecord where
  unitName : Word
  source : Word
  checksum : Word
  hex : isChecksum checksum.text = true
  deriving DecidableEq

structure DependencyRecord where
  path : Word
  stamp : Word
  checksum : Word
  unitName : Option Word
  dated : isStamp stamp.text = true
  hex : isChecksum checksum.text = true
  deriving DecidableEq

/-- One reference: where it is, in the file of a dependency if it names one, and its tag. -/
structure Token where
  dependency : Option Numeral
  line : Numeral
  tag : Char
  column : Numeral
  known : ((parameterModes.lookup tag).isSome || (referenceKinds.lookup tag).isSome) = true
  deriving DecidableEq

structure Entry where
  line : Numeral
  tag : Char
  column : Numeral
  libraryLevel : Bool
  name : Word
  tokens : List Token
  kind : isKindTag tag = true
  deriving DecidableEq

structure Section where
  index : Numeral
  file : Word
  entries : List Entry
  deriving DecidableEq

structure Document where
  version : Version
  units : List UnitRecord := []
  dependencies : List DependencyRecord := []
  sections : List Section := []
  deriving DecidableEq

def UnitRecord.file (u : UnitRecord) : String :=
  slashed (String.ofList u.source.text)

def DependencyRecord.file (d : DependencyRecord) : String :=
  slashed (String.ofList d.path.text)

def Section.path (s : Section) : String :=
  slashed (String.ofList s.file.text)

/-- The dependency with the number, counted from one. -/
def Document.dependency? (doc : Document) (i : Numeral) : Option DependencyRecord :=
  if 1 ≤ i.value then doc.dependencies[i.value - 1]? else none

/-! ## Layouts -/

def UnitRecord.words (u : UnitRecord) : List Word :=
  [u.unitName, u.source, u.checksum]

def DependencyRecord.words (d : DependencyRecord) : List Word :=
  [d.path, d.stamp, d.checksum] ++ d.unitName.toList

/-- A token as it is written, with a bar after the number of a dependency. -/
def Token.text (t : Token) : List Char :=
  (t.dependency.elim [] fun i => i.digits ++ ['|']) ++ (t.line.digits ++ t.tag :: t.column.digits)

/-- An entity without its references, as it is written. -/
def Entry.head (e : Entry) : List Char :=
  e.line.digits ++ e.tag :: (e.column.digits ++ (if e.libraryLevel then '*' else ' ') :: e.name.text)

/-- The tags that references have. -/
def referenceTags : List Char :=
  parameterModes.map (·.1) ++ referenceKinds.map (·.1)

theorem mem_tags_of_lookup {α : Type} {c : Char} : ∀ {l : List (Char × α)}, (l.lookup c).isSome = true →
    c ∈ l.map (·.1)
  | (k, a) :: l, h => by
    rw [List.lookup_cons] at h
    split at h
    next heq => simp [eq_of_beq heq]
    next => exact List.mem_cons_of_mem _ (mem_tags_of_lookup h)

theorem Token.tag_mem (t : Token) : t.tag ∈ referenceTags := by
  have hknown := t.known
  rw [Bool.or_eq_true] at hknown
  exact List.mem_append.2 (hknown.imp mem_tags_of_lookup mem_tags_of_lookup)

/-- No tag of a reference is a digit, a blank or a bar. -/
theorem tag_plain {c : Char} (h : c ∈ referenceTags) :
    isDecimal c = false ∧ isBlank c = false ∧ c ≠ '|' := by
  have hall : referenceTags.all (fun c => !isDecimal c && !isBlank c && c != '|') = true := by decide
  simpa [and_assoc] using List.all_eq_true.1 hall c h

def Token.word (t : Token) : Word where
  text := t.text
  nonempty := by simp [Token.text]
  solid c hc := by
    have hdigits (n : Numeral) (hn : c ∈ n.digits) : isBlank c = false := n.word.solid c hn
    simp only [Token.text, List.mem_append, List.mem_cons] at hc
    rcases hc with hc | hc | rfl | hc
    · cases hd : t.dependency with
      | none => simp [hd] at hc
      | some i =>
        simp only [hd, Option.elim_some, List.mem_append, List.mem_singleton] at hc
        rcases hc with hc | rfl
        · exact hdigits i hc
        · decide
    · exact hdigits t.line hc
    · exact (tag_plain t.tag_mem).2.1
    · exact hdigits t.column hc

/-- A line with a tag, a blank and words. -/
def IsRecord (tag : Char) (ws : List Word) (line : List Char) : Prop :=
  ∃ body, line = tag :: ' ' :: body ∧ Spaced ws body

/-- A line with an entity and its first references. -/
def IsEntity (e : Entry) (line : List Char) : Prop :=
  ∃ rest, line = e.head ++ rest ∧ Spaced (e.tokens.map Token.word) rest ∧
    ∀ c ∈ rest.head?, isBlank c = true

/-- A line with further references of the last entity. -/
def IsContinuation (ts : List Token) (line : List Char) : Prop :=
  ∃ rest, line = '.' :: rest ∧ Spaced (ts.map Token.word) rest

/-- A line that says nothing: a blank one, a comment, an argument or a with clause. -/
inductive IsIdle : List Char → Prop
  | blank {s : List Char} (h : ∀ c ∈ s, isGap c = true) : IsIdle s
  | comment {s : List Char} (h : ∀ c ∈ s, isLineBreak c = false) : IsIdle ('-' :: '-' :: s)
  | other {tag : Char} {s : List Char} (htag : tag = 'A' ∨ tag = 'W') (hne : ∃ c ∈ s, isBlank c = false)
      (h : ∀ c ∈ s, isLineBreak c = false) : IsIdle (tag :: ' ' :: s)

/-- Every dependency that the tokens name is there. -/
def Document.Names (doc : Document) (ts : List Token) : Prop :=
  ∀ t ∈ ts, ∀ i ∈ t.dependency, (doc.dependency? i).isSome = true

instance (doc : Document) (ts : List Token) : Decidable (doc.Names ts) :=
  inferInstanceAs (Decidable (∀ t ∈ ts, ∀ i ∈ t.dependency, (doc.dependency? i).isSome = true))

/-- The document with these sections, the last of them with these entries. -/
def Document.ending (doc : Document) (before : List Section) (s : Section) (es : List Entry) : Document :=
  { doc with sections := before ++ [{ s with entries := es }] }

/-- The lines say what the document says. -/
inductive Document.Laid : Document → List (List Char) → Prop
  | version {v : Version} {gap gap' : List Char} (hgap : ∀ c ∈ gap, isGap c = true)
      (hgap' : ∀ c ∈ gap', isGap c = true) :
      Laid { version := v } ['V' :: ' ' :: (gap ++ '"' :: (v.text ++ '"' :: gap'))]
  | unit {doc : Document} {ls : List (List Char)} {u : UnitRecord} {line : List Char} (h : Laid doc ls)
      (hline : IsRecord 'U' u.words line) : Laid { doc with units := doc.units ++ [u] } (ls ++ [line])
  | dependency {doc : Document} {ls : List (List Char)} {d : DependencyRecord} {line : List Char}
      (h : Laid doc ls) (hline : IsRecord 'D' d.words line) :
      Laid { doc with dependencies := doc.dependencies ++ [d] } (ls ++ [line])
  | enter {doc : Document} {ls : List (List Char)} {s : Section} {line : List Char} (h : Laid doc ls)
      (hnew : s.entries = []) (hfile : (doc.dependency? s.index).map (·.file) = some s.path)
      (hline : IsRecord 'X' [s.index.word, s.file] line) :
      Laid { doc with sections := doc.sections ++ [s] } (ls ++ [line])
  | entity {doc : Document} {ls : List (List Char)} {before : List Section} {s : Section}
      {es : List Entry} {e : Entry} {line : List Char} (h : Laid (doc.ending before s es) ls)
      (hnames : doc.Names e.tokens) (hline : IsEntity e line) :
      Laid (doc.ending before s (es ++ [e])) (ls ++ [line])
  | continuation {doc : Document} {ls : List (List Char)} {before : List Section} {s : Section}
      {es : List Entry} {e : Entry} {ts : List Token} {line : List Char}
      (h : Laid (doc.ending before s (es ++ [e])) ls) (hnames : doc.Names ts)
      (hline : IsContinuation ts line) :
      Laid (doc.ending before s (es ++ [{ e with tokens := e.tokens ++ ts }])) (ls ++ [line])
  | idle {doc : Document} {ls : List (List Char)} {line : List Char} (h : Laid doc ls)
      (hline : IsIdle line) : Laid doc (ls ++ [line])

/-! ## Meanings -/

def DependencyRecord.dependency (d : DependencyRecord) : Dependency where
  path := d.file
  stamp := String.ofList d.stamp.text
  checksum := String.ofList (d.checksum.text.map Char.toLower)
  unitName := (d.unitName.map fun w => String.ofList w.text).getD ""

/-- The file of the dependency with the number. -/
def Document.fileAt (doc : Document) (i : Numeral) : String :=
  ((doc.dependency? i).map (·.file)).getD ""

/-- Where a reference is and its tag. -/
abbrev Located := Location × Char

section
variable (fileAt : Numeral → String)

/-- The file that a token is in: another one if it names a dependency. -/
def Token.fileFrom (file : String) (t : Token) : String :=
  (t.dependency.map fileAt).getD file

/-- The tokens of an entity in `file`. A token that names a dependency moves those after it too. -/
def locate (file : String) : List Token → List Located
  | [] => []
  | t :: ts => (⟨t.fileFrom fileAt file, t.line.value, t.column.value⟩, t.tag) :: locate (t.fileFrom fileAt file) ts

/-- The file after the tokens. -/
def fileAfter (file : String) (ts : List Token) : String :=
  ts.foldl (Token.fileFrom fileAt) file

end

/-- The uses of an entity that are among its references. -/
def usesOf (key : EntityKey) (ms : List Located) : List Use :=
  ms.filterMap fun m => (referenceKinds.lookup m.2).map fun kind => ⟨key, m.1, kind⟩

/-- The references that name parameters, with their modes. -/
def modesOf (ms : List Located) : List (Location × ParameterMode) :=
  ms.filterMap fun m => (parameterModes.lookup m.2).map fun mode => (m.1, mode)

/-- The parameters of an entity that are among its references, numbered on from `n`. -/
def passedOf (key : EntityKey) (n : Nat) (ms : List Located) : List Passed :=
  ((modesOf ms).zipIdx (n + 1)).map fun p => ⟨key, p.1.1, p.1.2, p.2⟩

namespace Entry

def key (e : Entry) (file : String) : EntityKey :=
  ⟨String.ofList e.name.text, file, e.line.value, e.column.value⟩

def declared (e : Entry) (file : String) : Declared :=
  ⟨e.key file, entityKind e.tag, e.libraryLevel⟩

def uses (fileAt : Numeral → String) (e : Entry) (file : String) : List Use :=
  usesOf (e.key file) (locate fileAt file e.tokens)

def passed (fileAt : Numeral → String) (e : Entry) (file : String) : List Passed :=
  passedOf (e.key file) 0 (locate fileAt file e.tokens)

end Entry

/-- Of each key the last declaration, in the order of the first ones. -/
def lastOfEach (ds : List Declared) : List Declared :=
  ((ds.map (·.key)).eraseDups).filterMap fun key => (ds.filter (·.key = key)).getLast?

namespace Document

/-- The entries with the files of their sections. -/
def entries (doc : Document) : List (Entry × String) :=
  doc.sections.flatMap fun s => s.entries.map fun e => (e, s.path)

def unitName (doc : Document) : String :=
  (doc.units.head?.map fun u => String.ofList u.unitName.text).getD ""

def sourceFiles (doc : Document) : List String :=
  (doc.units.map (·.file)).eraseDups

def declared (doc : Document) : List Declared :=
  lastOfEach (doc.entries.map fun p => p.1.declared p.2)

def keys (doc : Document) : List EntityKey :=
  (doc.entries.map fun p => p.1.key p.2).eraseDups

def uses (doc : Document) : List Use :=
  doc.entries.flatMap fun p => p.1.uses doc.fileAt p.2

def passed (doc : Document) : List Passed :=
  doc.entries.flatMap fun p => p.1.passed doc.fileAt p.2

/-- The key that is declared at a location, or the location alone. -/
def keyAt (doc : Document) (l : Location) : EntityKey :=
  ((doc.keys.filter (·.location = l)).getLast?).getD l.key

/-- The unit that the document describes. -/
def meaning (doc : Document) (path checksum : String) : CompilationUnit where
  path := path
  unitName := doc.unitName
  version := String.ofList doc.version.text
  checksum := checksum
  sourceFiles := doc.sourceFiles
  dependencies := doc.dependencies.map (·.dependency)
  declarations := doc.declared.map fun e =>
    ⟨e.key, e.kind, e.libraryLevel, doc.sourceFiles.contains e.key.file⟩
  references := doc.uses.map fun u =>
    ⟨u.target, u.location, u.kind, scopeOf (scopeTable doc.keys doc.uses) u.location⟩
  parameters := doc.passed.map fun p => ⟨p.owner, doc.keyAt p.location, p.mode, p.ordinal⟩

end Document

end Crossref.Artifact
