/-
The clients of a cursor. A client calls the four operations in any order, also through
with blocks, which close at their end, and through iterators: an iterator passes the
element that is there, and moves on only when it is asked for the next one, so that
between two elements the client may do anything else. Whatever answers to the four
operations has such clients, and what answers alike to each operation answers alike to
every client.
-/
import Crossref.Failure

namespace Crossref.Cursor

/-- What can be gone through in a single pass: its operations on a state. -/
structure Pass (σ α : Type) where
  hasElement : σ → Except Failure Bool × σ
  current : σ → Except Failure (Option α) × σ
  advance : σ → Except Failure PUnit × σ
  close : σ → σ

/-- Where an iterator waits: before its first element, at the element that it passed last, or after its end. -/
inductive Pace where
  | fresh
  | standing
  | ended
  deriving DecidableEq, Repr

/-- What a client may do next. -/
inductive Use where
  | hasElement
  | current
  | advance
  | close
  | enterBlock
  | leaveBlock
  /-- Asks for a further iterator. -/
  | iterate
  /-- Asks the iterator with the number for its next element. -/
  | next (number : Nat)
  deriving DecidableEq, Repr

/-- What a client is told. -/
inductive Said (α : Type) where
  | done
  | raised (failure : Failure)
  | there (element : Bool)
  | value (value : Option α)
  | passed (value : Option α)
  | stopped
  deriving DecidableEq, Repr

/-- A failure is raised. -/
def Said.of {α β : Type} (said : β → Said α) : Except Failure β → Said α
  | .ok answer => said answer
  | .error failure => .raised failure

/-- A state and the iterators over it. -/
structure Client (σ : Type) where
  state : σ
  iterators : List Pace := []

namespace Pass

variable {σ τ α : Type}

/-- An iterator passes the element that is there, or stops. -/
def look (p : Pass σ α) (s : σ) : Except Failure (Option (Option α)) × σ :=
  match p.hasElement s with
  | (.error e, s) => (.error e, s)
  | (.ok false, s) => (.ok none, s)
  | (.ok true, s) =>
    match p.current s with
    | (.error e, s) => (.error e, s)
    | (.ok v, s) => (.ok (some v), s)

section
variable {p : Pass σ α} {s s' s'' : σ} {v : Option α}

theorem look_none (h : p.hasElement s = (.ok false, s')) : p.look s = (.ok none, s') := by
  rw [look, h]

theorem look_some (h : p.hasElement s = (.ok true, s')) (hcurrent : p.current s' = (.ok v, s'')) :
    p.look s = (.ok (some v), s'') := by
  rw [look, h]
  dsimp only
  rw [hcurrent]

end

/-- An iterator goes on from where it waits. -/
def resume (p : Pass σ α) : Pace → σ → Except Failure (Option (Option α)) × σ
  | .ended, s => (.ok none, s)
  | .fresh, s => p.look s
  | .standing, s =>
    match p.advance s with
    | (.error e, s) => (.error e, s)
    | (.ok _, s) => p.look s

theorem resume_standing {p : Pass σ α} {s s' : σ} (h : p.advance s = (.ok (), s')) :
    p.resume .standing s = p.look s' := by
  rw [resume, h]

/-- An iterator that does not pass an element is at its end, also where it raises. -/
def paceAfter : Except Failure (Option (Option α)) → Pace
  | .ok (some _) => .standing
  | _ => .ended

def use (p : Pass σ α) (c : Client σ) : Use → Said α × Client σ
  | .hasElement => (.of .there (p.hasElement c.state).1, { c with state := (p.hasElement c.state).2 })
  | .current => (.of .value (p.current c.state).1, { c with state := (p.current c.state).2 })
  | .advance => (.of (fun _ => .done) (p.advance c.state).1, { c with state := (p.advance c.state).2 })
  | .close => (.done, { c with state := p.close c.state })
  | .enterBlock => (.done, c)
  | .leaveBlock => (.done, { c with state := p.close c.state })
  | .iterate => (.done, { c with iterators := c.iterators ++ [.fresh] })
  | .next n =>
    match c.iterators[n]? with
    | none => (.stopped, c)
    | some pace =>
      let answer := p.resume pace c.state
      (.of (fun passed => passed.elim .stopped .passed) answer.1,
        { state := answer.2, iterators := c.iterators.set n (paceAfter answer.1) })

/-- What the client is told of its uses, and where they lead. -/
def run (p : Pass σ α) (c : Client σ) : List Use → List (Said α) × Client σ
  | [] => ([], c)
  | u :: us => ((p.use c u).1 :: (p.run (p.use c u).2 us).1, (p.run (p.use c u).2 us).2)

/-! ## Simulation -/

/-- The same answer, and states in the relation. -/
def Alike (R : σ → τ → Prop) {β : Type} (x : β × σ) (y : β × τ) : Prop :=
  x.1 = y.1 ∧ R x.2 y.2

/-- From states in the relation the operations answer alike. -/
structure Simulates (R : σ → τ → Prop) (p : Pass σ α) (q : Pass τ α) : Prop where
  hasElement : ∀ {s t}, R s t → Alike R (p.hasElement s) (q.hasElement t)
  current : ∀ {s t}, R s t → Alike R (p.current s) (q.current t)
  advance : ∀ {s t}, R s t → Alike R (p.advance s) (q.advance t)
  close : ∀ {s t}, R s t → R (p.close s) (q.close t)

namespace Simulates

variable {R : σ → τ → Prop} {p : Pass σ α} {q : Pass τ α} (h : Simulates R p q)
include h

theorem look {s : σ} {t : τ} (hr : R s t) : Alike R (p.look s) (q.look t) := by
  have hthere := h.hasElement hr
  unfold Pass.look
  generalize p.hasElement s = x, q.hasElement t = y at hthere ⊢
  obtain ⟨⟨answer, s₁⟩, ⟨_, t₁⟩, rfl, hthen⟩ := x, y, hthere
  rcases answer with e | _ | _
  · exact ⟨rfl, hthen⟩
  · exact ⟨rfl, hthen⟩
  · have hcurrent := h.current hthen
    dsimp only
    generalize p.current s₁ = x, q.current t₁ = y at hcurrent ⊢
    obtain ⟨⟨answer, s₂⟩, ⟨_, t₂⟩, rfl, hthen⟩ := x, y, hcurrent
    cases answer <;> exact ⟨rfl, hthen⟩

theorem resume {s : σ} {t : τ} (hr : R s t) (pace : Pace) : Alike R (p.resume pace s) (q.resume pace t) := by
  cases pace with
  | ended => exact ⟨rfl, hr⟩
  | fresh => exact h.look hr
  | standing =>
    have hadvance := h.advance hr
    unfold Pass.resume
    dsimp only
    generalize p.advance s = x, q.advance t = y at hadvance ⊢
    obtain ⟨⟨answer, s₁⟩, ⟨_, t₁⟩, rfl, hthen⟩ := x, y, hadvance
    cases answer with
    | error e => exact ⟨rfl, hthen⟩
    | ok _ => exact h.look hthen

/-- The states are in the relation, and the iterators wait in the same places. -/
theorem use {c : Client σ} {d : Client τ} (hr : R c.state d.state) (hi : c.iterators = d.iterators) (u : Use) :
    (p.use c u).1 = (q.use d u).1 ∧ R (p.use c u).2.state (q.use d u).2.state ∧
      (p.use c u).2.iterators = (q.use d u).2.iterators := by
  cases u with
  | hasElement =>
    obtain ⟨hsame, hthen⟩ := h.hasElement hr
    exact ⟨congrArg (Said.of .there) hsame, hthen, hi⟩
  | current =>
    obtain ⟨hsame, hthen⟩ := h.current hr
    exact ⟨congrArg (Said.of .value) hsame, hthen, hi⟩
  | advance =>
    obtain ⟨hsame, hthen⟩ := h.advance hr
    exact ⟨congrArg (Said.of fun _ => .done) hsame, hthen, hi⟩
  | close => exact ⟨rfl, h.close hr, hi⟩
  | enterBlock => exact ⟨rfl, hr, hi⟩
  | leaveBlock => exact ⟨rfl, h.close hr, hi⟩
  | iterate => exact ⟨rfl, hr, congrArg (· ++ [Pace.fresh]) hi⟩
  | next n =>
    unfold Pass.use
    dsimp only
    rw [hi]
    cases d.iterators[n]? with
    | none => exact ⟨rfl, hr, hi⟩
    | some pace =>
      obtain ⟨hsame, hthen⟩ := h.resume hr pace
      dsimp only
      rw [hsame]
      exact ⟨rfl, hthen, rfl⟩

/-- **What answers alike to each operation answers alike to every client.** -/
theorem run : ∀ {c : Client σ} {d : Client τ} (us : List Use), R c.state d.state → c.iterators = d.iterators →
    (p.run c us).1 = (q.run d us).1 ∧ R (p.run c us).2.state (q.run d us).2.state ∧
      (p.run c us).2.iterators = (q.run d us).2.iterators
  | _, _, [], hr, hi => ⟨rfl, hr, hi⟩
  | _, _, u :: us, hr, hi => by
    obtain ⟨hsaid, hr', hi'⟩ := h.use hr hi u
    obtain ⟨hrest, hr'', hi''⟩ := run us hr' hi'
    exact ⟨by rw [Pass.run, Pass.run, hsaid, hrest], hr'', hi''⟩

end Simulates

/-! ## Where nothing happens any more -/

/-- The state shows no element and stays as it is, whatever is called. -/
structure Spent (p : Pass σ α) (s : σ) : Prop where
  hasElement : p.hasElement s = (.ok false, s)
  current : p.current s = (.error .exhausted, s)
  advance : p.advance s = (.ok (), s)
  close : p.close s = s

theorem Spent.resume {p : Pass σ α} {s : σ} (h : p.Spent s) (pace : Pace) : p.resume pace s = (.ok none, s) := by
  cases pace with
  | ended => rfl
  | fresh => exact look_none h.hasElement
  | standing => exact (resume_standing h.advance).trans (look_none h.hasElement)

theorem Spent.use {p : Pass σ α} {c : Client σ} (h : p.Spent c.state) (u : Use) : (p.use c u).2.state = c.state := by
  cases u with
  | hasElement => exact congrArg Prod.snd h.hasElement
  | current => exact congrArg Prod.snd h.current
  | advance => exact congrArg Prod.snd h.advance
  | close => exact h.close
  | enterBlock => rfl
  | leaveBlock => exact h.close
  | iterate => rfl
  | next n =>
    unfold Pass.use
    dsimp only
    cases c.iterators[n]? with
    | none => rfl
    | some pace => exact congrArg Prod.snd (h.resume pace)

theorem Spent.run {p : Pass σ α} : ∀ {c : Client σ} (us : List Use), p.Spent c.state →
    (p.run c us).2.state = c.state
  | _, [], _ => rfl
  | c, u :: us, h => by
    have hsame := h.use u
    exact (Spent.run us (hsame.symm ▸ h)).trans hsame

end Pass

end Crossref.Cursor
