/-
What a cursor looks like from outside: a position in the list of its rows. A cursor and
the view of its rows answer every client alike, whatever their check says each time it
is asked; how often the check was asked, how often the holder was told and how often
the meaning of a row was worked out are read off the view.
-/
import Crossref.Proofs.Cursor.Clients
import Crossref.Proofs.Cursor.Sound

namespace Crossref.Cursor

variable {ρ α : Type}

/-! ## Cursors that are checked -/

/-- A cursor and how often its check has been asked. -/
structure Checked (ρ α : Type) where
  cursor : Cursor ρ α
  asked : Nat := 0

/-- The verdict on the next call. `guard` says what the check answers each time; a closed cursor does not ask. -/
def Checked.verdict (guard : Nat → Except Failure PUnit) (c : Checked ρ α) : Except Failure PUnit :=
  if c.cursor.closed then .ok () else guard c.asked

def Checked.ask (c : Checked ρ α) : Checked ρ α :=
  { c with asked := if c.cursor.closed then c.asked else c.asked + 1 }

/-- The operations of a cursor whose rows can all be had. -/
def pass (guard : Nat → Except Failure PUnit) (meaning : ρ → Except Failure (Option α)) : Pass (Checked ρ α) α where
  hasElement c := (c.cursor.hasElement (c.verdict guard), c.ask)
  current c :=
    let (answer, cursor) := c.cursor.current (c.verdict guard) meaning
    (answer, { c.ask with cursor })
  advance c :=
    let (answer, cursor) := c.cursor.advance (c.verdict guard) (.ok ())
    (answer, { c.ask with cursor })
  close c := { c with cursor := c.cursor.close }

/-! ## The view -/

/-- A position in the rows. -/
structure View where
  position : Nat := 0
  /-- It was closed by a client. -/
  shut : Bool := false
  /-- How often the check has been asked. -/
  asked : Nat := 0
  /-- The positions whose meaning was worked out, each time anew. -/
  mapped : List Nat := []
  deriving DecidableEq, Repr

namespace View

section
variable (rows : List ρ)

/-- It was closed by a client, or the rows ran out. -/
def closed (v : View) : Bool :=
  v.shut || decide (rows.length ≤ v.position)

/-- The rows from the position on. -/
def rest (v : View) : List ρ :=
  if v.shut then [] else rows.drop v.position

def verdict (guard : Nat → Except Failure PUnit) (v : View) : Except Failure PUnit :=
  if v.closed rows then .ok () else guard v.asked

def ask (v : View) : View :=
  { v with asked := if v.closed rows then v.asked else v.asked + 1 }

variable (meaning : ρ → Except Failure (Option α))

/-- What is remembered of the row at the position: its meaning, if it was worked out and is something. -/
def known (v : View) : Option α :=
  if v.position ∈ v.mapped then (v.rest rows).head?.bind fun r => (meaning r).toOption.join else none

/-- What the row means is worked out, unless it is remembered. -/
def map (v : View) : View :=
  if (v.known rows meaning).isSome then v else { v with mapped := v.mapped ++ [v.position] }

/-- The operations, read off the rows: an element is there while the view is not closed, it is the row at the
position, and to advance is to move by one, if there is a row to leave. -/
def pass (guard : Nat → Except Failure PUnit) : Pass View α where
  hasElement v := ((v.verdict rows guard).map fun _ => !v.closed rows, v.ask rows)
  current v :=
    match v.verdict rows guard, v.rest rows with
    | .error e, _ => (.error e, v.ask rows)
    | .ok _, [] => (.error .exhausted, v.ask rows)
    | .ok _, r :: _ => (meaning r, (v.ask rows).map rows meaning)
  advance v :=
    match v.verdict rows guard, v.rest rows with
    | .error e, _ => (.error e, v.ask rows)
    | .ok _, [] => (.ok (), v.ask rows)
    | .ok _, _ :: _ => (.ok (), { v.ask rows with position := v.position + 1 })
  close v := { v with shut := true }

end

variable {rows : List ρ} {meaning : ρ → Except Failure (Option α)} {v : View}

theorem rest_of_closed (h : v.closed rows = true) : v.rest rows = [] := by
  rw [closed, Bool.or_eq_true, decide_eq_true_eq] at h
  unfold rest
  split
  · rfl
  next hshut => exact List.drop_of_length_le (h.resolve_left hshut)

/-- An open view is at a row. -/
theorem rest_of_open (h : v.closed rows = false) :
    ∃ r, rows[v.position]? = some r ∧ v.rest rows = r :: rows.drop (v.position + 1) := by
  rw [closed, Bool.or_eq_false_iff, decide_eq_false_iff_not, Nat.not_le] at h
  obtain ⟨hshut, hposition⟩ := h
  refine ⟨_, List.getElem?_eq_getElem hposition, ?_⟩
  rw [rest, if_neg (by simp [hshut]), ← List.drop_eq_getElem_cons hposition]

end View

/-! ## Cursors and views -/

/-- A cursor and its check are as the view says. -/
structure Mirrors (rows : List ρ) (meaning : ρ → Except Failure (Option α)) (c : Checked ρ α) (v : View) : Prop where
  sound : c.cursor.Sound meaning
  rest : c.cursor.rest = v.rest rows
  closed : c.cursor.closed = v.closed rows
  value : c.cursor.value = v.known rows meaning
  asked : c.asked = v.asked
  mapped : c.cursor.mapped = v.mapped.length
  told : c.cursor.notices = if v.closed rows then 1 else 0
  behind : ∀ i ∈ v.mapped, i ≤ v.position
  once : ∀ i r x, rows[i]? = some r → meaning r = .ok (some x) → v.mapped.count i ≤ 1

theorem mirrors_ofRows (rows : List ρ) (meaning : ρ → Except Failure (Option α)) :
    Mirrors rows meaning { cursor := ofRows rows } {} where
  sound := ofRows_sound rows
  rest := ofRows_rest rows
  closed := by cases rows <;> rfl
  value := by cases rows <;> rfl
  asked := rfl
  mapped := by cases rows <;> rfl
  told := by cases rows <;> rfl
  behind := by simp
  once := by simp

namespace Mirrors

variable {rows : List ρ} {meaning : ρ → Except Failure (Option α)} {guard : Nat → Except Failure PUnit}
  {c : Checked ρ α} {v : View}

theorem verdict (h : Mirrors rows meaning c v) : c.verdict guard = v.verdict rows guard := by
  rw [Checked.verdict, View.verdict, h.closed, h.asked]

/-- Asking the check is counted, and nothing else changes. -/
theorem ask (h : Mirrors rows meaning c v) : Mirrors rows meaning c.ask (v.ask rows) :=
  { h with asked := by rw [Checked.ask, View.ask, h.closed, h.asked] }

section
variable (h : Mirrors rows meaning c v) (hopen : v.closed rows = false)
include h hopen

theorem row : ∃ r, c.cursor.row = some r ∧ rows[v.position]? = some r ∧ v.rest rows = r :: c.cursor.upcoming ∧
    c.cursor.upcoming = rows.drop (v.position + 1) := by
  obtain ⟨r, hrow, hrest⟩ := h.sound.rest_of_open (h.closed.trans hopen)
  obtain ⟨r', hposition, hrest'⟩ := View.rest_of_open hopen
  have hsame : r :: c.cursor.upcoming = r' :: rows.drop (v.position + 1) := by rw [← hrest, h.rest, hrest']
  obtain ⟨rfl, hupcoming⟩ := List.cons.inj hsame
  exact ⟨r, hrow, hposition, by rw [hrest', hupcoming], hupcoming⟩

/-- The meaning of a row is worked out and, if it is something, remembered. -/
theorem map (hunknown : v.known rows meaning = none) {r : ρ} (hrow : c.cursor.row = some r) :
    Mirrors rows meaning
      { c with cursor := { c.cursor with value := (meaning r).toOption.join, mapped := c.cursor.mapped + 1 } }
      { v with mapped := v.mapped ++ [v.position] } := by
  obtain ⟨r', hrow', hposition, hrest, -⟩ := h.row hopen
  obtain rfl : r = r' := Option.some.inj (hrow.symm.trans hrow')
  have hvalue : (View.known rows meaning { v with mapped := v.mapped ++ [v.position] }) =
      (meaning r).toOption.join := by
    change (if v.position ∈ v.mapped ++ [v.position] then (v.rest rows).head?.bind _ else none) = _
    rw [if_pos (by simp), hrest]
    rfl
  exact {
    sound := { h.sound with
      value := fun x hx r' hr' => by
        obtain rfl : r = r' := Option.some.inj (hrow.symm.trans hr')
        cases hm : meaning r with
        | error e => rw [hm] at hx; cases hx
        | ok y => rw [hm] at hx; exact congrArg Except.ok hx }
    rest := h.rest
    closed := h.closed
    value := hvalue.symm
    asked := h.asked
    mapped := by rw [List.length_append]; exact congrArg (· + 1) h.mapped
    told := h.told
    behind := by simpa [or_imp, forall_and] using h.behind
    once := fun i r' x hr' hx => by
      rw [List.count_append, List.count_singleton]
      split
      next heq =>
        -- Had it been worked out before, it would be remembered.
        obtain rfl : v.position = i := by simpa using heq
        obtain rfl : r = r' := Option.some.inj (hposition.symm.trans hr')
        have hnew : v.position ∉ v.mapped := fun hmem => by
          rw [View.known, if_pos hmem, hrest, List.head?_cons, Option.bind_some, hx] at hunknown
          cases hunknown
        exact Nat.succ_le_succ (Nat.le_of_eq (List.count_eq_zero.2 hnew))
      · exact h.once i r' x hr' hx }

/-- The next row is fetched; without one the cursor closes and tells its holder. -/
theorem fetch : Mirrors rows meaning { c with cursor := c.cursor.fetch } { v with position := v.position + 1 } := by
  obtain ⟨-, -, -, -, hupcoming⟩ := h.row hopen
  have hcursor : c.cursor.closed = false := h.closed.trans hopen
  have hshut : v.shut = false := (Bool.or_eq_false_iff.1 hopen).1
  have hclosed : View.closed rows { v with position := v.position + 1 } = c.cursor.upcoming.isEmpty := by
    rw [hupcoming, View.closed, hshut, Bool.false_or, Bool.eq_iff_iff]
    simp
  have hnew : v.position + 1 ∉ v.mapped := fun hmem => absurd (h.behind _ hmem) (by omega)
  have hvalue : View.known rows meaning { v with position := v.position + 1 } = none := if_neg hnew
  have hrest : View.rest rows { v with position := v.position + 1 } = c.cursor.upcoming := by
    rw [View.rest, if_neg (by simp [hshut]), hupcoming]
  have htold : c.cursor.notices = 0 := h.told.trans (if_neg (by simp [hopen]))
  have hfetch := fetch_open hcursor
  exact {
    sound := fetch_sound hcursor
    rest := (rest_fetch hcursor).trans hrest.symm
    closed := by rw [hclosed, hfetch]
    value := by rw [hvalue, hfetch]
    asked := h.asked
    mapped := by rw [hfetch]; exact h.mapped
    told := by rw [hclosed, hfetch, htold]
    behind := fun i hi => Nat.le_succ_of_le (h.behind i hi)
    once := h.once }

end

theorem hasElement (h : Mirrors rows meaning c v) :
    Pass.Alike (Mirrors rows meaning) ((pass guard meaning).hasElement c)
      ((View.pass rows meaning guard).hasElement v) := by
  refine ⟨?_, h.ask⟩
  change c.cursor.hasElement (c.verdict guard) = (v.verdict rows guard).map fun _ => !v.closed rows
  rw [h.verdict]
  cases hclosed : v.closed rows with
  | true =>
    rw [hasElement_closed h.sound.apt (h.closed.trans hclosed), View.verdict, if_pos hclosed]
    rfl
  | false =>
    cases v.verdict rows guard with
    | error e => exact hasElement_invalid (h.closed.trans hclosed)
    | ok _ =>
      obtain ⟨r, hrow, -⟩ := h.sound.rest_of_open (h.closed.trans hclosed)
      rw [hasElement_open (h.closed.trans hclosed), hrow]
      rfl

theorem current (h : Mirrors rows meaning c v) :
    Pass.Alike (Mirrors rows meaning) ((pass guard meaning).current c)
      ((View.pass rows meaning guard).current v) := by
  unfold pass View.pass
  dsimp only
  rw [h.verdict]
  cases hclosed : v.closed rows with
  | true =>
    rw [current_closed h.sound.apt (h.closed.trans hclosed), View.verdict, if_pos hclosed,
      View.rest_of_closed hclosed]
    exact ⟨rfl, h.ask⟩
  | false =>
    have hopen := h.closed.trans hclosed
    obtain ⟨r, hrow, -, hrest, -⟩ := h.row hclosed
    rw [hrest]
    cases v.verdict rows guard with
    | error e =>
      rw [current_invalid hopen]
      exact ⟨rfl, h.ask⟩
    | ok _ =>
      have hknown : (v.ask rows).known rows meaning = v.known rows meaning := rfl
      dsimp only
      rw [View.map, hknown, ← h.value]
      cases hvalue : c.cursor.value with
      | some x =>
        rw [current_known hopen hrow hvalue]
        exact ⟨(h.sound.value x hvalue r hrow).symm, h.ask⟩
      | none =>
        rw [current_unknown hopen hrow hvalue]
        exact ⟨rfl, h.ask.map hclosed (h.value.symm.trans hvalue) hrow⟩

theorem advance (h : Mirrors rows meaning c v) :
    Pass.Alike (Mirrors rows meaning) ((pass guard meaning).advance c)
      ((View.pass rows meaning guard).advance v) := by
  unfold pass View.pass
  dsimp only
  rw [h.verdict]
  cases hclosed : v.closed rows with
  | true =>
    rw [advance_closed h.sound.apt (h.closed.trans hclosed), View.verdict, if_pos hclosed,
      View.rest_of_closed hclosed]
    exact ⟨rfl, h.ask⟩
  | false =>
    have hopen := h.closed.trans hclosed
    obtain ⟨r, hrow, -, hrest, -⟩ := h.row hclosed
    rw [hrest]
    cases v.verdict rows guard with
    | error e =>
      rw [advance_invalid hopen]
      exact ⟨rfl, h.ask⟩
    | ok _ =>
      rw [advance_open hopen hrow]
      exact ⟨rfl, h.ask.fetch hclosed⟩

theorem close (h : Mirrors rows meaning c v) :
    Mirrors rows meaning ((pass guard meaning).close c) ((View.pass rows meaning guard).close v) := by
  have hvalue : View.known rows meaning { v with shut := true } = none := by
    unfold View.known
    split <;> rfl
  change Mirrors rows meaning { c with cursor := c.cursor.close } { v with shut := true }
  cases hclosed : v.closed rows with
  | true =>
    have hcursor := h.closed.trans hclosed
    have hforgotten : c.cursor.value = none := by
      rw [h.value, View.known, View.rest_of_closed hclosed]
      split <;> rfl
    rw [close_closed hcursor]
    exact { h with
      rest := h.sound.rest_of_closed hcursor
      closed := hcursor
      value := hforgotten.trans hvalue.symm
      told := h.told.trans (if_pos hclosed) }
  | false =>
    have htold := h.told.trans (if_neg (by simp [hclosed]))
    rw [close_open (h.closed.trans hclosed)]
    exact { h with
      sound := { apt := by simp [Apt], value := by simp, spent := fun _ => rfl }
      rest := rfl
      closed := rfl
      value := hvalue.symm
      told := congrArg (· + 1) htold }

/-- **A cursor is simulated by the view of its rows.** -/
theorem simulates (rows : List ρ) (meaning : ρ → Except Failure (Option α)) (guard : Nat → Except Failure PUnit) :
    Pass.Simulates (Mirrors rows meaning) (pass guard meaning) (View.pass rows meaning guard) where
  hasElement := hasElement
  current := current
  advance := advance
  close := close

/-- A closed cursor is closed for good, and its check is not asked any more. -/
theorem spent (h : Mirrors rows meaning c v) (hclosed : c.cursor.closed = true) : (pass guard meaning).Spent c := by
  have hask : c.ask = c := by rw [Checked.ask, if_pos hclosed]
  exact {
    hasElement := by
      unfold pass
      dsimp only
      rw [hask, hasElement_closed h.sound.apt hclosed]
    current := by
      unfold pass
      dsimp only
      rw [hask, current_closed h.sound.apt hclosed]
    advance := by
      unfold pass
      dsimp only
      rw [hask, advance_closed h.sound.apt hclosed]
    close := by
      unfold pass
      dsimp only
      rw [close_closed hclosed] }

/-- A check that raises is all that happens. -/
theorem raises (hopen : c.cursor.closed = false) {e : Failure} (hguard : guard c.asked = .error e)
    (iterators : List Pace) :
    ∀ u ∈ [Use.hasElement, .current, .advance], (pass guard meaning).use ⟨c, iterators⟩ u =
      (.raised e, ⟨{ c with asked := c.asked + 1 }, iterators⟩) := by
  have hverdict : c.verdict guard = .error e := by rw [Checked.verdict, hopen, if_neg Bool.false_ne_true, hguard]
  have hask : c.ask = { c with asked := c.asked + 1 } := by rw [Checked.ask, hopen, if_neg Bool.false_ne_true]
  intro u hu
  simp only [List.mem_cons, List.not_mem_nil, or_false] at hu
  rcases hu with rfl | rfl | rfl <;> unfold Pass.use pass <;> dsimp only
  · rw [hverdict, hask, hasElement_invalid hopen]
    rfl
  · rw [hverdict, hask, current_invalid hopen]
    rfl
  · rw [hverdict, hask, advance_invalid hopen]
    rfl

end Mirrors

end Crossref.Cursor
