/-
The written form of the parts of a record: the quoted version, stamps, checksums, the head of an entity line, and the
tokens that refer to entities. Each `ofText?` answers `none` for text that does not have the form.
-/
import Crossref.Artifact.Unit
import Crossref.Text.Blank
import Crossref.Text.Digit

namespace Crossref.Artifact

open Text (isBlank isDecimal)

/-- The kinds of entity by the letter on an entity line. -/
def entityKinds : List (Char × String) :=
  [('K', "package"), ('U', "procedure"), ('V', "function"), ('I', "integer-type"), ('i', "integer-object"),
   ('F', "float-type"), ('f', "float-object"), ('E', "enumeration-type"), ('e', "enumeration-literal"),
   ('R', "record-type"), ('r', "record-object"), ('A', "array-type"), ('a', "array-object"), ('P', "access-type"),
   ('p', "access-object"), ('B', "boolean-type"), ('b', "boolean-object"), ('T', "task-type"), ('t', "task-object"),
   ('L', "label"), ('X', "exception"), ('Z', "generic-formal-type"), ('z', "generic-formal-object"),
   ('y', "abstract-function"), ('x', "abstract-procedure"), ('+', "private-type")]

def entityKind (tag : Char) : String :=
  (entityKinds.lookup tag).getD "unknown"

def referenceKinds : List (Char × ReferenceKind) :=
  [('r', .read), ('m', .write), ('s', .call), ('R', .dispatchingCall), ('b', .body), ('c', .completion),
   ('e', .endOfSpec), ('t', .endOfBody), ('l', .label), ('w', .withClause), ('i', .implicit), ('k', .parent),
   ('p', .primitive), ('x', .typeExtension), ('d', .discriminant), ('o', .ownVariable), ('z', .genericFormal)]

def parameterModes : List (Char × ParameterMode) :=
  [('>', .input), ('<', .output), ('=', .inOut), ('^', .access)]

/-- The version between its quotes. -/
def version? : List Char → Option (List Char)
  | '"' :: r => if r.getLast? = some '"' && !r.dropLast.contains '"' then some r.dropLast else none
  | _ => none

def isStamp (s : List Char) : Bool :=
  s.length = 14 && s.all isDecimal

def isHexDigit (c : Char) : Bool :=
  ('0' ≤ c && c ≤ '9') || ('a' ≤ c && c ≤ 'f') || ('A' ≤ c && c ≤ 'F')

def isChecksum (s : List Char) : Bool :=
  s.length = 8 && s.all isHexDigit

/-- The declaration at the head of an entity line, and the text after it. The numbers are kept as written. -/
structure EntityHead where
  line : List Char
  tag : Char
  column : List Char
  libraryLevel : Bool
  name : List Char
  rest : List Char
  deriving DecidableEq, Repr

def isKindTag (c : Char) : Bool :=
  ('A' ≤ c && c ≤ 'Z') || ('a' ≤ c && c ≤ 'z') || c = '+'

def EntityHead.ofText? (s : List Char) : Option EntityHead :=
  match s.dropWhile isDecimal with
  | [] => none
  | tag :: s₁ =>
    match s₁.dropWhile isDecimal with
    | [] => none
    | level :: s₂ =>
      let head : EntityHead :=
        { line := s.takeWhile isDecimal
          tag
          column := s₁.takeWhile isDecimal
          libraryLevel := level = '*'
          name := s₂.takeWhile (!isBlank ·)
          rest := s₂.dropWhile (!isBlank ·) }
      if head.line.isEmpty || !isKindTag tag || head.column.isEmpty || !(level = '*' || level = ' ') ||
          head.name.isEmpty then none
      else some head

/-- A token that refers to an entity: where, and with which tag. -/
structure Mention where
  dependency : Option (List Char)
  line : List Char
  tag : Char
  column : List Char
  deriving DecidableEq, Repr

/-- A line, a tag and a column: the part of a token after its dependency index. -/
def Mention.afterIndex? (dependency : Option (List Char)) (s : List Char) : Option Mention :=
  match s.dropWhile isDecimal with
  | [] => none
  | tag :: column =>
    let line := s.takeWhile isDecimal
    if line.isEmpty || isBlank tag || tag = '|' || column.isEmpty || !column.all isDecimal then none
    else some { dependency, line, tag, column }

def Mention.ofText? (s : List Char) : Option Mention :=
  match s.dropWhile isDecimal with
  | '|' :: r => if (s.takeWhile isDecimal).isEmpty then none else afterIndex? (some (s.takeWhile isDecimal)) r
  | _ => afterIndex? none s

end Crossref.Artifact
