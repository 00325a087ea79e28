/-
What a cursor does whatever its rows are. It is closed exactly if it stands on no row; a
closed one stays as it is and shows nothing, and one that is open but not valid any more
stays as it is and says so. To go through it is to pass the meanings of its rows in order.
-/
import Crossref.Cursor

namespace Crossref

namespace Cursor

variable {ρ α : Type} {valid source : Except Failure PUnit} {meaning : ρ → Except Failure (Option α)}

/-- The cursor is closed exactly if it stands on no row. -/
def Apt (c : Cursor ρ α) : Prop :=
  c.closed = true ↔ c.row = none

variable {c : Cursor ρ α}

theorem close_apt (c : Cursor ρ α) (h : c.closed = true → c.row = none) : c.close.Apt := by
  unfold close
  split
  next hclosed => exact ⟨h, fun _ => hclosed⟩
  next => exact ⟨fun _ => rfl, fun _ => rfl⟩

theorem fetch_apt (h : c.closed = false) : c.fetch.Apt := by
  unfold fetch
  split
  · exact close_apt _ fun _ => rfl
  · simp [Apt, h]

theorem ofRows_apt (rows : List ρ) : (ofRows rows : Cursor ρ α).Apt :=
  fetch_apt rfl

theorem Apt.current (h : c.Apt) : (c.current valid meaning).2.Apt := by
  unfold Cursor.current
  split
  · exact h
  · exact h
  · exact h
  · split <;> exact h

theorem Apt.advance (h : c.Apt) : (c.advance valid source).2.Apt := by
  unfold Cursor.advance
  split
  · exact h
  · exact h
  · exact h
  next hrow =>
    have hopen : c.closed = false :=
      Bool.eq_false_iff.2 fun hclosed => Option.some_ne_none _ (hrow.symm.trans (h.1 hclosed))
    exact fetch_apt hopen

theorem Apt.toListFuel : ∀ {fuel : Nat} {c : Cursor ρ α}, c.Apt →
    (c.toListFuel valid source meaning fuel).2.Apt
  | 0, _, h => h
  | fuel + 1, c, h => by
    unfold Cursor.toListFuel
    split
    · exact h
    · exact h
    · have hcurrent : (c.current valid meaning).2.Apt := h.current
      rcases hc : c.current valid meaning with ⟨_ | v, c₁⟩ <;> rw [hc] at hcurrent
      · exact hcurrent
      · have hadvance : (c₁.advance valid source).2.Apt := hcurrent.advance
        dsimp only
        rcases ha : c₁.advance valid source with ⟨_ | _, c₂⟩ <;> rw [ha] at hadvance
        · exact hadvance
        · exact Apt.toListFuel hadvance

theorem Apt.toList (h : c.Apt) : (c.toList valid source meaning).2.Apt := by
  unfold Cursor.toList
  exact h.toListFuel

/-! A closed cursor stays as it is and shows nothing. -/

section
variable (h : c.Apt) (hclosed : c.closed = true)
include h hclosed

theorem hasElement_closed : c.hasElement valid = .ok false := by
  simp [hasElement, check, hclosed, h.1 hclosed, bind, Except.bind, pure, Except.pure]

theorem current_closed : c.current valid meaning = (.error .exhausted, c) := by
  simp [current, check, hclosed, h.1 hclosed]

theorem advance_closed : c.advance valid source = (.ok (), c) := by
  simp [advance, check, hclosed, h.1 hclosed]

theorem toList_closed : c.toList valid source meaning = (.ok [], c) := by
  unfold toList toListFuel
  rw [hasElement_closed h hclosed]

end

/-! An open cursor that is not valid any more stays as it is and says so. -/

section
variable {e : Failure} (hopen : c.closed = false)
include hopen

theorem hasElement_invalid : c.hasElement (.error e) = .error e := by
  simp [hasElement, check, hopen, bind, Except.bind]

theorem current_invalid : c.current (.error e) meaning = (.error e, c) := by
  simp [current, check, hopen]

theorem advance_invalid : c.advance (.error e) source = (.error e, c) := by
  simp [advance, check, hopen]

theorem toList_invalid : c.toList (.error e) source meaning = (.error e, c) := by
  unfold toList toListFuel
  rw [hasElement_invalid hopen]

end

/-! An open cursor that is valid shows the row that it stands on. -/

section
variable (hopen : c.closed = false)
include hopen

theorem hasElement_open : c.hasElement (.ok ()) = .ok c.row.isSome := by
  simp [hasElement, check, hopen, bind, Except.bind, pure, Except.pure]

theorem current_known {r : ρ} {v : α} (hrow : c.row = some r) (hvalue : c.value = some v) :
    c.current (.ok ()) meaning = (.ok (some v), c) := by
  unfold current
  rw [check, if_neg (by simp [hopen]), hrow, hvalue]

theorem current_unknown {r : ρ} (hrow : c.row = some r) (hvalue : c.value = none) :
    c.current (.ok ()) meaning =
      (meaning r, { c with value := (meaning r).toOption.join, mapped := c.mapped + 1 }) := by
  unfold current
  rw [check, if_neg (by simp [hopen]), hrow, hvalue]
  dsimp only
  cases meaning r <;> rfl

theorem advance_open {r : ρ} (hrow : c.row = some r) : c.advance (.ok ()) (.ok ()) = (.ok (), c.fetch) := by
  unfold advance
  rw [check, if_neg (by simp [hopen]), hrow]

/-- The next row is fetched; without one the cursor closes, and says so. -/
theorem fetch_open : c.fetch =
    { upcoming := c.upcoming.tail
      row := c.upcoming.head?
      value := none
      closed := c.upcoming.isEmpty
      mapped := c.mapped
      notices := if c.upcoming.isEmpty then c.notices + 1 else c.notices } := by
  unfold fetch
  cases c.upcoming with
  | nil => simp [close, hopen]
  | cons r rows => simp [hopen]

theorem close_open : c.close = ⟨[], none, none, true, c.mapped, c.notices + 1⟩ := by
  simp [close, hopen]

end

theorem close_closed (hclosed : c.closed = true) : c.close = c := by
  simp [close, hclosed]

/-! ## Going through a cursor -/

/-- The rows from the current one on. -/
def rest (c : Cursor ρ α) : List ρ :=
  c.row.toList ++ c.upcoming

/-- What is remembered is what the current row means, and a closed cursor has no rows left. -/
structure Sound (meaning : ρ → Except Failure (Option α)) (c : Cursor ρ α) : Prop where
  apt : c.Apt
  value : ∀ v ∈ c.value, ∀ r ∈ c.row, meaning r = .ok (some v)
  spent : c.closed = true → c.upcoming = []

theorem fetch_sound (hopen : c.closed = false) : c.fetch.Sound meaning := by
  rw [fetch_open hopen]
  cases c.upcoming with
  | nil => exact { apt := by simp [Apt], value := by simp, spent := fun _ => rfl }
  | cons r rows => exact { apt := by simp [Apt], value := by simp, spent := by simp }

theorem rest_fetch (hopen : c.closed = false) : c.fetch.rest = c.upcoming := by
  rw [fetch_open hopen]
  cases c.upcoming <;> rfl

theorem Sound.rest_of_closed (h : c.Sound meaning) (hclosed : c.closed = true) : c.rest = [] := by
  rw [rest, h.apt.1 hclosed, h.spent hclosed]
  rfl

theorem Sound.rest_of_open (h : c.Sound meaning) (hopen : c.closed = false) :
    ∃ r, c.row = some r ∧ c.rest = r :: c.upcoming := by
  cases hrow : c.row with
  | none => exact absurd (hopen.symm.trans (h.apt.2 hrow)) Bool.false_ne_true
  | some r => exact ⟨r, rfl, by rw [rest, hrow]; rfl⟩

variable {value : ρ → Option α}

/-- The current row is passed as what it means, whether that is remembered or worked out. -/
theorem Sound.current_eq (h : c.Sound meaning) (hopen : c.closed = false) {r : ρ} (hrow : c.row = some r)
    (hr : meaning r = .ok (value r)) :
    ∃ c', c.current (.ok ()) meaning = (.ok (value r), c') ∧ c'.row = some r ∧ c'.upcoming = c.upcoming ∧
      c'.closed = false := by
  cases hv : c.value with
  | none =>
    have hcurrent : c.current (.ok ()) meaning = _ := current_unknown hopen hrow hv
    rw [hr] at hcurrent
    exact ⟨_, hcurrent, hrow, rfl, hopen⟩
  | some v =>
    have heq : value r = some v := Except.ok.inj (hr.symm.trans (h.value v hv r hrow))
    exact ⟨c, (current_known hopen hrow hv).trans (by rw [heq]), hrow, rfl, hopen⟩

/-- **To go through a cursor is to pass the meanings of its rows from the current one on.** It is closed then. -/
theorem toListFuel_rest : ∀ {fuel : Nat} {c : Cursor ρ α}, c.Sound meaning →
    (∀ r ∈ c.rest, meaning r = .ok (value r)) → c.rest.length < fuel →
      (c.toListFuel (.ok ()) (.ok ()) meaning fuel).1 = .ok (c.rest.map value) ∧
        (c.toListFuel (.ok ()) (.ok ()) meaning fuel).2.closed = true
  | fuel + 1, c, h, hvalue, hfuel => by
    unfold toListFuel
    cases hclosed : c.closed with
    | true =>
      rw [hasElement_closed h.apt hclosed, h.rest_of_closed hclosed]
      exact ⟨rfl, hclosed⟩
    | false =>
      obtain ⟨r, hrow, hrest⟩ := h.rest_of_open hclosed
      obtain ⟨c₁, hcurrent, hrow₁, hupcoming, hopen⟩ := h.current_eq hclosed hrow (hvalue r (by simp [hrest]))
      have hrest₁ : c₁.fetch.rest = c.upcoming := (rest_fetch hopen).trans hupcoming
      have hvalue₁ : ∀ r' ∈ c₁.fetch.rest, meaning r' = .ok (value r') := fun r' hr' =>
        hvalue r' (by rw [hrest]; exact List.mem_cons_of_mem _ (hrest₁ ▸ hr'))
      have hfuel₁ : c₁.fetch.rest.length < fuel := by
        rw [hrest, List.length_cons] at hfuel
        rw [hrest₁]
        exact Nat.lt_of_succ_lt_succ hfuel
      obtain ⟨hlist, hend⟩ := toListFuel_rest (fetch_sound hopen) hvalue₁ hfuel₁
      rw [hasElement_open hclosed, hrow]
      dsimp only [Option.isSome_some]
      rw [hcurrent]
      dsimp only
      rw [advance_open hopen hrow₁]
      dsimp only
      rw [hlist, hrest₁, hrest]
      exact ⟨rfl, hend⟩

theorem Sound.toList_eq (h : c.Sound meaning) (hvalue : ∀ r ∈ c.rest, meaning r = .ok (value r)) :
    (c.toList (.ok ()) (.ok ()) meaning).1 = .ok (c.rest.map value) ∧
      (c.toList (.ok ()) (.ok ()) meaning).2.closed = true := by
  refine toListFuel_rest h hvalue ?_
  rw [rest, List.length_append, Nat.add_comm]
  exact Nat.add_lt_add_left (by cases c.row <;> simp) _

theorem ofRows_sound (rows : List ρ) : (ofRows rows : Cursor ρ α).Sound meaning :=
  fetch_sound rfl

theorem ofRows_rest (rows : List ρ) : (ofRows rows : Cursor ρ α).rest = rows :=
  rest_fetch rfl

/-- A cursor over rows that can be had passes the meanings of all of them. -/
theorem toList_ofRows {rows : List ρ} (h : ∀ r ∈ rows, meaning r = .ok (value r)) :
    ((ofRows rows).toList (.ok ()) (.ok ()) meaning).1 = .ok (rows.map value) := by
  rw [← ofRows_rest (α := α) rows] at h
  rw [((ofRows_sound rows).toList_eq h).1, ofRows_rest]

end Cursor

end Crossref
