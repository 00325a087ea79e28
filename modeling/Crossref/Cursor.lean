/-
A cursor is a single pass over rows. It holds the row it stands on; what the row means is worked out at most once, when
it is first asked for, unless the answer is that it means nothing. A cursor closes when it is told to or when its rows
run out, and lets its holder know once. Until then a check that its store is still there precedes every look.
-/
import Crossref.Failure

namespace Crossref

structure Cursor (ρ α : Type) where
  /-- The rows after the current one. -/
  upcoming : List ρ
  row : Option ρ := none
  /-- What the current row means, once it has been asked for. -/
  value : Option α := none
  closed : Bool := false
  /-- How often the meaning of a row has been worked out. -/
  mapped : Nat := 0
  /-- How often the holder has been told that the cursor closed. -/
  notices : Nat := 0
  deriving DecidableEq, Repr

namespace Cursor

variable {ρ α : Type}

def close (c : Cursor ρ α) : Cursor ρ α :=
  if c.closed then c
  else { c with upcoming := [], row := none, value := none, closed := true, notices := c.notices + 1 }

/-- Moves to the next row; without one the cursor closes. -/
def fetch (c : Cursor ρ α) : Cursor ρ α :=
  match c.upcoming with
  | [] => { c with row := none, value := none }.close
  | r :: rs => { c with upcoming := rs, row := some r, value := none }

def ofRows (rows : List ρ) : Cursor ρ α :=
  ({ upcoming := rows } : Cursor ρ α).fetch

/-- A closed cursor is no longer checked. -/
def check (valid : Except Failure PUnit) (c : Cursor ρ α) : Except Failure PUnit :=
  if c.closed then .ok () else valid

def hasElement (valid : Except Failure PUnit) (c : Cursor ρ α) : Except Failure Bool := do
  c.check valid
  pure c.row.isSome

/-- The meaning of the current row, with the cursor that remembers it. -/
def current (valid : Except Failure PUnit) (meaning : ρ → Except Failure (Option α)) (c : Cursor ρ α) :
    Except Failure (Option α) × Cursor ρ α :=
  match c.check valid, c.row, c.value with
  | .error e, _, _ => (.error e, c)
  | .ok _, none, _ => (.error .exhausted, c)
  | .ok _, some _, some v => (.ok (some v), c)
  | .ok _, some r, none =>
    match meaning r with
    | .error e => (.error e, { c with mapped := c.mapped + 1 })
    | .ok v => (.ok v, { c with value := v, mapped := c.mapped + 1 })

/-- Moves on; without a current row nothing happens. `source` says whether further rows can be had. -/
def advance (valid source : Except Failure PUnit) (c : Cursor ρ α) : Except Failure PUnit × Cursor ρ α :=
  match c.check valid, c.row, source with
  | .error e, _, _ => (.error e, c)
  | .ok _, none, _ => (.ok (), c)
  | .ok _, some _, .error e => (.error e, { c with value := none })
  | .ok _, some _, .ok _ => (.ok (), c.fetch)

/-- The meanings of the current row and of all rows after it, up to `fuel` rows. -/
def toListFuel (valid source : Except Failure PUnit) (meaning : ρ → Except Failure (Option α)) :
    Nat → Cursor ρ α → Except Failure (List (Option α)) × Cursor ρ α
  | 0, c => (.ok [], c)
  | fuel + 1, c =>
    match c.hasElement valid with
    | .error e => (.error e, c)
    | .ok false => (.ok [], c)
    | .ok true =>
      match c.current valid meaning with
      | (.error e, c) => (.error e, c)
      | (.ok v, c) =>
        match c.advance valid source with
        | (.error e, c) => (.error e, c)
        | (.ok _, c) =>
          let (rest, c) := toListFuel valid source meaning fuel c
          (rest.map (v :: ·), c)

/-- Goes through the rest of the rows; the cursor is closed afterwards. -/
def toList (valid source : Except Failure PUnit) (meaning : ρ → Except Failure (Option α)) (c : Cursor ρ α) :
    Except Failure (List (Option α)) × Cursor ρ α :=
  toListFuel valid source meaning (c.upcoming.length + 2) c

end Cursor

end Crossref
