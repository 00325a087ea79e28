/-
Reports of progress, one for each artifact that an update reads.
-/

namespace Crossref

structure Progress where
  /-- The number of the artifact, from one on. -/
  number : Nat
  total : Nat
  path : String
  deriving DecidableEq, Repr

end Crossref
