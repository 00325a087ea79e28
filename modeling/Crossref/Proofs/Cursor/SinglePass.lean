/-
A cursor is a single pass over its rows. Whatever a client has done with it, the client
was told what the view of the rows says, and from there on an iterator passes what is
left. A cursor that is closed stays closed, and while it is open a check that raises
stops every call before it does anything.
-/
import Crossref.Proofs.Cursor.View

namespace Crossref.Cursor

variable {ρ α : Type}

/-! ## Going through the view -/

namespace View

variable {rows : List ρ} {meaning : ρ → Except Failure (Option α)} {guard : Nat → Except Failure PUnit}
  {value : ρ → Option α}

/-- From now on nothing raises. -/
structure Calm (rows : List ρ) (meaning : ρ → Except Failure (Option α)) (guard : Nat → Except Failure PUnit)
    (value : ρ → Option α) (v : View) : Prop where
  guard : ∀ n, v.asked ≤ n → guard n = .ok ()
  value : ∀ r ∈ v.rest rows, meaning r = .ok (value r)

variable {v : View}

theorem Calm.verdict (h : Calm rows meaning guard value v) : v.verdict rows guard = .ok () := by
  unfold View.verdict
  split
  · rfl
  · exact h.guard _ (Nat.le_refl _)

/-- Later, with fewer rows left, it is as calm. -/
theorem Calm.mono (h : Calm rows meaning guard value v) {v' : View} (hasked : v.asked ≤ v'.asked)
    (hrest : ∀ r ∈ v'.rest rows, r ∈ v.rest rows) : Calm rows meaning guard value v' where
  guard n hn := h.guard n (Nat.le_trans hasked hn)
  value r hr := h.value r (hrest r hr)

theorem le_asked_ask (rows : List ρ) (v : View) : v.asked ≤ (v.ask rows).asked := by
  unfold ask
  split
  · exact Nat.le_refl _
  · exact Nat.le_succ _

theorem Calm.ask (h : Calm rows meaning guard value v) : Calm rows meaning guard value (v.ask rows) :=
  h.mono (le_asked_ask rows v) fun _ hr => hr

theorem Calm.hasElement (h : Calm rows meaning guard value v) :
    (View.pass rows meaning guard).hasElement v = (.ok (!v.closed rows), v.ask rows) := by
  change (Except.map _ (v.verdict rows guard), _) = _
  rw [h.verdict]
  rfl

theorem Calm.current (h : Calm rows meaning guard value v) {r : ρ} {rs : List ρ} (hrest : v.rest rows = r :: rs) :
    (View.pass rows meaning guard).current v = (.ok (value r), (v.ask rows).map rows meaning) := by
  unfold View.pass
  dsimp only
  rw [h.verdict, hrest]
  dsimp only
  rw [h.value r (by simp [hrest])]

theorem Calm.map (h : Calm rows meaning guard value v) :
    (v.map rows meaning).rest rows = v.rest rows ∧ Calm rows meaning guard value (v.map rows meaning) := by
  unfold View.map
  split
  · exact ⟨rfl, h⟩
  · exact ⟨rfl, h.mono (Nat.le_refl _) fun _ hr => hr⟩

/-- A look passes the row at the position, and the rows stay. -/
theorem Calm.look (h : Calm rows meaning guard value v) :
    ∃ v', (View.pass rows meaning guard).look v = (.ok ((v.rest rows).head?.map value), v') ∧
      v'.rest rows = v.rest rows ∧ Calm rows meaning guard value v' := by
  have hthere := h.hasElement
  cases hclosed : v.closed rows with
  | true =>
    have hrest := rest_of_closed hclosed
    rw [hclosed] at hthere
    exact ⟨v.ask rows, (Pass.look_none hthere).trans (by rw [hrest]; rfl), rfl, h.ask⟩
  | false =>
    obtain ⟨r, -, hrest⟩ := rest_of_open hclosed
    rw [hclosed] at hthere
    have hlook := Pass.look_some hthere (h.ask.current hrest)
    obtain ⟨hsame, hcalm⟩ := h.ask.ask.map
    exact ⟨_, hlook.trans (by rw [hrest]; rfl), hsame, hcalm⟩

/-- To move on is to leave the row at the position behind. -/
theorem Calm.advance (h : Calm rows meaning guard value v) :
    ∃ v', (View.pass rows meaning guard).advance v = (.ok (), v') ∧ v'.rest rows = (v.rest rows).tail ∧
      Calm rows meaning guard value v' := by
  unfold View.pass
  dsimp only
  rw [h.verdict]
  cases hclosed : v.closed rows with
  | true =>
    have hrest := rest_of_closed hclosed
    rw [hrest]
    exact ⟨_, rfl, hrest, h.ask⟩
  | false =>
    obtain ⟨r, -, hrest⟩ := rest_of_open hclosed
    have hshut : (v.ask rows).shut = false := (Bool.or_eq_false_iff.1 hclosed).1
    have hnext : View.rest rows { v.ask rows with position := v.position + 1 } = rows.drop (v.position + 1) :=
      if_neg (by simp [hshut])
    rw [hrest]
    refine ⟨_, rfl, hnext, h.ask.mono (Nat.le_refl _) fun r' hr' => ?_⟩
    rw [hnext] at hr'
    exact hrest ▸ List.mem_cons_of_mem r hr'

/-- The rows that an iterator has still to pass. -/
def due (rows : List ρ) (v : View) : Pace → List ρ
  | .fresh => v.rest rows
  | .standing => (v.rest rows).tail
  | .ended => []

theorem Calm.resume (h : Calm rows meaning guard value v) {pace : Pace} (hpace : pace ≠ .ended) :
    ∃ v', (View.pass rows meaning guard).resume pace v = (.ok ((v.due rows pace).head?.map value), v') ∧
      v'.rest rows = v.due rows pace ∧ Calm rows meaning guard value v' := by
  cases pace with
  | ended => exact absurd rfl hpace
  | fresh => exact h.look
  | standing =>
    obtain ⟨v₁, hadvance, hrest, h₁⟩ := h.advance
    obtain ⟨v₂, hlook, hrest₂, h₂⟩ := h₁.look
    rw [hrest] at hlook
    exact ⟨v₂, (Pass.resume_standing hadvance).trans hlook, hrest₂.trans hrest, h₂⟩

/-- **An iterator passes the meanings of the rows that are left, and stops.** -/
theorem Calm.iterates : ∀ {left : List ρ} {v : View} {iterators : List Pace} {n : Nat} {pace : Pace},
    Calm rows meaning guard value v → iterators[n]? = some pace → pace ≠ .ended → v.due rows pace = left →
      ((View.pass rows meaning guard).run ⟨v, iterators⟩ (List.replicate (left.length + 1) (.next n))).1 =
        (left.map fun r => .passed (value r)) ++ [.stopped]
  | left, v, iterators, n, pace, h, hn, hpace, hdue => by
    obtain ⟨v', hresume, hrest, h'⟩ := h.resume hpace
    have huse : (View.pass rows meaning guard).use ⟨v, iterators⟩ (.next n) =
        (.of (fun passed => passed.elim .stopped .passed) (.ok (left.head?.map value)),
          ⟨v', iterators.set n (Pass.paceAfter (.ok (left.head?.map value)))⟩) := by
      unfold Pass.use
      dsimp only
      rw [hn]
      dsimp only
      rw [hresume, hdue]
    rw [List.replicate_succ, Pass.run, huse]
    cases left with
    | nil => rfl
    | cons r left =>
      have hlt : n < iterators.length := (List.getElem?_eq_some_iff.1 hn).1
      have hleft : v'.due rows .standing = left := congrArg List.tail (hrest.trans hdue)
      have hwaits : (iterators.set n Pace.standing)[n]? = some .standing := List.getElem?_set_self hlt
      have ih := Calm.iterates h' hwaits (by decide) hleft
      exact congrArg (Said.passed (value r) :: ·) ih

end View

/-! ## Single passes -/

/-- What a client may rely on, after any uses: `c` is what it has of a cursor over the rows, and `v` is where the
view of the rows is. -/
structure Reliable (rows : List ρ) (meaning : ρ → Except Failure (Option α)) (guard : Nat → Except Failure PUnit)
    (c : Client (Checked ρ α)) (v : View) : Prop where
  /-- It is closed exactly if a client closed it or its rows ran out. -/
  closed : c.state.cursor.closed = true ↔ v.shut = true ∨ rows.length ≤ v.position
  /-- The holder has been told once if it is closed, and never before. -/
  told : c.state.cursor.notices = if c.state.cursor.closed then 1 else 0
  asked : c.state.asked = v.asked
  mapped : c.state.cursor.mapped = v.mapped.length
  /-- What a row means is worked out once, if it is something. -/
  once : ∀ i r x, rows[i]? = some r → meaning r = .ok (some x) → v.mapped.count i ≤ 1
  /-- While it is open a check that raises is asked, and nothing else happens. -/
  raises : c.state.cursor.closed = false → ∀ e, guard c.state.asked = .error e →
    ∀ u ∈ [Use.hasElement, .current, .advance], (pass guard meaning).use c u =
      (.raised e, { c with state := { c.state with asked := c.state.asked + 1 } })
  /-- Once it is closed it stays as it is, and its check is not asked any more. -/
  spent : c.state.cursor.closed = true → ∀ us, ((pass guard meaning).run c us).2.state = c.state
  /-- A further iterator passes the rows that are left, if nothing raises. -/
  iterates : ∀ value : ρ → Option α, (∀ r ∈ v.rest rows, meaning r = .ok (value r)) →
    (∀ n, c.state.asked ≤ n → guard n = .ok ()) →
      ((pass guard meaning).run c
        (.iterate :: List.replicate ((v.rest rows).length + 1) (.next c.iterators.length))).1 =
        .done :: ((v.rest rows).map fun r => .passed (value r)) ++ [.stopped]
  /-- So does going through it at once, and closes it. -/
  lists : ∀ value : ρ → Option α, (∀ r ∈ v.rest rows, meaning r = .ok (value r)) →
    (c.state.cursor.toList (.ok ()) (.ok ()) meaning).1 = .ok ((v.rest rows).map value) ∧
      (c.state.cursor.toList (.ok ()) (.ok ()) meaning).2.closed = true

theorem Mirrors.iterates {rows : List ρ} {meaning : ρ → Except Failure (Option α)}
    {guard : Nat → Except Failure PUnit} {c : Client (Checked ρ α)} {v : View} (h : Mirrors rows meaning c.state v)
    {value : ρ → Option α} (hvalue : ∀ r ∈ v.rest rows, meaning r = .ok (value r))
    (hguard : ∀ n, c.state.asked ≤ n → guard n = .ok ()) :
    ((pass guard meaning).run c
      (.iterate :: List.replicate ((v.rest rows).length + 1) (.next c.iterators.length))).1 =
      .done :: ((v.rest rows).map fun r => .passed (value r)) ++ [.stopped] := by
  have hcalm : v.Calm rows meaning guard value := ⟨h.asked ▸ hguard, hvalue⟩
  have hfresh : (c.iterators ++ [Pace.fresh])[c.iterators.length]? = some .fresh := by simp
  obtain ⟨hsame, -⟩ := (simulates rows meaning guard).run (c := c) (d := ⟨v, c.iterators⟩)
    (.iterate :: List.replicate ((v.rest rows).length + 1) (.next c.iterators.length)) h rfl
  rw [hsame]
  exact congrArg (Said.done :: ·) (hcalm.iterates hfresh (by decide) rfl)

theorem Mirrors.reliable {rows : List ρ} {meaning : ρ → Except Failure (Option α)}
    {c : Client (Checked ρ α)} {v : View} (h : Mirrors rows meaning c.state v)
    (guard : Nat → Except Failure PUnit) : Reliable rows meaning guard c v where
  closed := by rw [h.closed, View.closed, Bool.or_eq_true, decide_eq_true_eq]
  told := by rw [h.told, h.closed]
  asked := h.asked
  mapped := h.mapped
  once := h.once
  raises hopen _ hguard := Mirrors.raises hopen hguard c.iterators
  spent hclosed us := (h.spent hclosed).run us
  iterates _ hvalue hguard := h.iterates hvalue hguard
  lists _ hvalue := h.rest ▸ h.sound.toList_eq (h.rest ▸ hvalue)

/-- **A cursor is a single pass over its rows.** Whatever the rows mean and whatever its check says at any time,
a client of the cursor is told what a client of the view is told, and may rely on the cursor. -/
theorem single_pass (rows : List ρ) (meaning : ρ → Except Failure (Option α))
    (guard : Nat → Except Failure PUnit) (uses : List Use) :
    let had := (pass guard meaning).run { state := { cursor := ofRows rows } } uses
    let seen := (View.pass rows meaning guard).run { state := {} } uses
    had.1 = seen.1 ∧ had.2.iterators = seen.2.iterators ∧ Reliable rows meaning guard had.2 seen.2.state := by
  obtain ⟨hsaid, hmirrors, hiterators⟩ := (Mirrors.simulates rows meaning guard).run uses
    (c := { state := { cursor := ofRows rows } }) (d := { state := {} }) (mirrors_ofRows rows meaning) rfl
  exact ⟨hsaid, hiterators, hmirrors.reliable guard⟩

/-- The check raises the third time it is asked, within an iteration; the cursor is closed in the end. -/
example : ((pass (fun n => if n = 2 then .error .exhausted else .ok ()) fun r => .ok (some (r * 10))).run
    { state := { cursor := ofRows [1, 2, 3] } }
    [.iterate, .next 0, .next 0, .next 0, .current, .advance, .hasElement, .leaveBlock, .hasElement]).1 =
    [.done, .passed (some 10), .raised .exhausted, .stopped, .value (some 10), .done, .there true, .done,
      .there false] := by
  decide

end Crossref.Cursor
