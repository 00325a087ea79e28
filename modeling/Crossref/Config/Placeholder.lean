/-
Placeholders in texts: a dollar sign and a name in braces stand for the variable with that name. A name is a run of word
characters. A placeholder of a variable that is not set stays as it is.
-/
import Crossref.Config.Value
import Crossref.Text.WordChar

namespace Crossref.Config

open Text (isWordChar)

/-- Variables with their values; of two entries for one name the first counts. -/
abbrev Variables := List (String × String)

/-- The text that takes the place of the placeholder of a name. -/
def substitute (vars : Variables) (name : List Char) : List Char :=
  match vars.lookup (String.ofList name) with
  | some value => value.toList
  | none => '$' :: '{' :: name ++ ['}']

/-- Cuts a placeholder off, behind its dollar sign and brace: its name and what follows it. -/
def placeholder? (s : List Char) : Option (List Char × List Char) :=
  let name := s.takeWhile isWordChar
  match s.dropWhile isWordChar with
  | '}' :: rest => if name.isEmpty then none else some (name, rest)
  | _ => none

theorem placeholder?_length {s name rest : List Char} (h : placeholder? s = some (name, rest)) :
    rest.length < s.length := by
  have hs := (List.dropWhile_sublist isWordChar (l := s)).length_le
  unfold placeholder? at h
  split at h
  · rename_i hd
    rw [hd, List.length_cons] at hs
    simp only [Option.ite_none_left_eq_some, Option.some.injEq, Prod.mk.injEq] at h
    rw [← h.2.2]
    omega
  · simp at h

def expand (vars : Variables) (s : List Char) : List Char :=
  match s with
  | [] => []
  | c :: r =>
    if c = '$' then
      match r with
      | '{' :: t =>
        match _found : placeholder? t with
        | some (name, rest) => substitute vars name ++ expand vars rest
        | none => c :: expand vars ('{' :: t)
      | r => c :: expand vars r
    else c :: expand vars r
termination_by s.length
decreasing_by
  · have := placeholder?_length _found
    simp only [List.length_cons]
    omega
  · simp
  · simp
  · simp

mutual

/-- The value with the placeholders in its texts filled in; keys stay as they are. -/
def Value.expand (vars : Variables) : Value → Value
  | .scalar (.text s) => .text (String.ofList (Config.expand vars s.toList))
  | .scalar s => .scalar s
  | .list items => .list (expandItems vars items)
  | .mapping entries => .mapping (expandEntries vars entries)

def expandItems (vars : Variables) : List Value → List Value
  | [] => []
  | v :: rest => v.expand vars :: expandItems vars rest

def expandEntries (vars : Variables) : List (Scalar × Value) → List (Scalar × Value)
  | [] => []
  | (key, v) :: rest => (key, v.expand vars) :: expandEntries vars rest

end

end Crossref.Config
