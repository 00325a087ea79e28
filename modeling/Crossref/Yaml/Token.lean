/-
The tokens of a document, and what can be wrong with one.
-/
import Crossref.Text.Numeral

namespace Crossref.Yaml

/-- What is wrong with a document. -/
inductive Fault where
  /-- A character that may not occur. -/
  | character
  /-- No token can be read, or one that may not stand there. -/
  | lexical
  /-- The tokens do not form one document tree. -/
  | grammar
  /-- A name is used that stands for nothing, or for two things, or there are two documents. -/
  | reference
  /-- A value is not of the type that it is said to have. -/
  | type
  | numeral (text : String) (base : Nat)
  /-- A decimal numeral with more digits than are read. -/
  | tooLong (digits : Nat)
  | emptyNumeral
  | notADecimal (text : String)
  | notABoolean (text : String)
  | notADate
  | date (reason : String)
  | codePoint
  /-- A code that does not even fit into a signed word of 32 bits. -/
  | codeRange
  /-- A value that contains itself. -/
  | endless
  deriving DecidableEq, Repr

inductive Directive where
  | version (major : Nat)
  | tag (handle leading : String)
  | unknown
  deriving DecidableEq, Repr

/-- A tag as it is written: a handle, if there is one, and what follows it. -/
structure TagName where
  handle : Option String
  suffix : String
  deriving DecidableEq, Repr

inductive Token where
  | directive (d : Directive)
  | documentStart
  | documentEnd
  | streamEnd
  | blockSequenceStart
  | blockMappingStart
  | blockEnd
  | flowSequenceStart
  | flowSequenceEnd
  | flowMappingStart
  | flowMappingEnd
  | entry
  | flowEntry
  | key
  | value
  | reference (name : String)
  | anchor (name : String)
  | tag (name : TagName)
  | scalar (plain : Bool) (text : String)
  deriving DecidableEq, Repr

end Crossref.Yaml
