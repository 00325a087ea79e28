/-
How an index is used: looks at the cursors that it handed out, and questions. A closed
cursor and a cursor that may not be looked at stay as they are, whatever the look. A
question that is not admitted changes nothing, and one that is admitted spares all
connections and changes the index only by the cursor that it hands out.
-/
import Crossref.Proofs.Cursor.Sound
import Crossref.Proofs.Workspace.Sparing

namespace Crossref

/-! ## Looking at a cursor -/

/-- What a call answers. -/
inductive Answer where
  | done
  | cursor (number : Nat)
  | element (there : Bool)
  | finding (found : Option Finding)
  | findings (found : List (Option Finding))
  | stats (stats : Stats)
  | entity (id : Option Int)
  | declaration (info : DeclarationInfo)
  | updated (result : UpdateResult)

/-- The answer passes a row of a cursor or says that there is one. -/
def Answer.showsRow : Answer → Bool
  | .element there => there
  | .finding _ => true
  | .findings found => !found.isEmpty
  | _ => false

/-- What may be done with a cursor. -/
inductive Look where
  | hasElement
  | current
  | advance
  | toList
  | close
  deriving DecidableEq, Repr

namespace Look

def run (x : Index) (w : Workspace) (c : HeldCursor) : Look → Except Failure Answer × HeldCursor
  | .hasElement => ((x.hasElement c).map .element, c)
  | .current => ((x.current c).1.map .finding, (x.current c).2)
  | .advance => ((x.advance w c).1.map fun _ => .done, (x.advance w c).2)
  | .toList => ((x.toList w c).1.map .findings, (x.toList w c).2)
  | .close => (.ok .done, { c with cursor := c.cursor.close })

variable {x : Index} {w : Workspace} {c : HeldCursor}

theorem run_generation (look : Look) : (look.run x w c).2.generation = c.generation := by
  cases look <;> rfl

theorem run_held (look : Look) : (look.run x w c).2.held = c.held := by
  cases look <;> rfl

theorem run_apt (h : c.cursor.Apt) (look : Look) : (look.run x w c).2.cursor.Apt := by
  cases look with
  | hasElement => exact h
  | current => exact h.current
  | advance => exact h.advance
  | toList => exact h.toList
  | close => exact Cursor.close_apt _ h.1

/-- A closed cursor stays as it is, and no look shows a row of it. -/
theorem run_closed (h : c.cursor.Apt) (hclosed : c.cursor.closed = true) (look : Look) :
    (look.run x w c).2 = c ∧ ∀ a, (look.run x w c).1 = .ok a → a.showsRow = false := by
  cases look with
  | hasElement =>
    refine ⟨rfl, fun a ha => ?_⟩
    unfold run Index.hasElement at ha
    rw [Cursor.hasElement_closed h hclosed] at ha
    exact Except.ok.inj ha ▸ rfl
  | current =>
    unfold run Index.current
    rw [Cursor.current_closed h hclosed]
    exact ⟨rfl, nofun⟩
  | advance =>
    unfold run Index.advance
    rw [Cursor.advance_closed h hclosed]
    exact ⟨rfl, fun a ha => Except.ok.inj ha ▸ rfl⟩
  | toList =>
    unfold run Index.toList
    rw [Cursor.toList_closed h hclosed]
    exact ⟨rfl, fun a ha => Except.ok.inj ha ▸ rfl⟩
  | close =>
    unfold run Cursor.close
    rw [if_pos hclosed]
    exact ⟨rfl, fun a ha => Except.ok.inj ha ▸ rfl⟩

/-- An open cursor that may not be looked at stays as it is and says so. -/
theorem run_refused {e : Failure} (hopen : c.cursor.closed = false) (hlook : x.admitLook c = .error e)
    {look : Look} (hne : look ≠ .close) : look.run x w c = (.error e, c) := by
  cases look with
  | hasElement =>
    unfold run Index.hasElement
    rw [hlook, Cursor.hasElement_invalid hopen]
    rfl
  | current =>
    unfold run Index.current
    rw [hlook, Cursor.current_invalid hopen]
    rfl
  | advance =>
    unfold run Index.advance
    rw [hlook, Cursor.advance_invalid hopen]
    rfl
  | toList =>
    unfold run Index.toList
    rw [hlook, Cursor.toList_invalid hopen]
    rfl
  | close => exact absurd rfl hne

end Look

/-! ## Asking a question -/

inductive Question where
  | stats
  | entity (name : String) (file : FileArgument) (line column : Int)
  | declaration (entity : Option Int)
  | entities (name : Option String) (file : Option FileArgument) (kind : Option String)
  | references (entity : Option Int)
  | parameters (entity : Option Int)

/-- The result of an operation, if there is one, has the property. -/
def WorkM.Yields {α : Type} (x : WorkM α) (P : α → Prop) : Prop :=
  ∀ w a, (x w).1 = .ok a → P a

namespace WorkM.Yields

variable {α β : Type}

theorem pure {P : α → Prop} {a : α} (h : P a) : Yields (pure a) P :=
  fun _ _ ha => Except.ok.inj ha ▸ h

theorem bind {P : α → Prop} {Q : β → Prop} {x : WorkM α} {f : α → WorkM β} (hx : Yields x P)
    (hf : ∀ a, P a → Yields (f a) Q) : Yields (x >>= f) Q := by
  intro w b hb
  rw [bind_apply] at hb
  rcases hr : x w with ⟨e | a, w'⟩ <;> simp only [hr] at hb
  · cases hb
  · exact hf a (hx w a (by rw [hr])) w' b hb

theorem trivial (x : WorkM α) : Yields x fun _ => True :=
  fun _ _ _ => True.intro

end WorkM.Yields

/-- The operation fails at once. -/
def WorkM.Refuses {α : Type} (e : Failure) (x : WorkM α) : Prop :=
  ∀ w, x w = (.error e, w)

theorem WorkM.Refuses.bind {α β : Type} {e : Failure} {x : WorkM α} (h : Refuses e x) (f : α → WorkM β) :
    Refuses e (x >>= f) :=
  fun w => by rw [bind_apply, h]

namespace Question

/-- Asks the question; only those that hand out a cursor change the index. -/
def ask (x : Index) : Question → WorkM (Index × Answer)
  | .stats => do pure (x, .stats (← x.stats))
  | .entity name file line column => do pure (x, .entity (← x.entity? name file line column))
  | .declaration e => do pure (x, .declaration (← x.declaration e))
  | .entities name file kind => do
    let (x, n) ← x.entities name file kind
    pure (x, .cursor n)
  | .references e => do
    let (x, n) ← x.references e
    pure (x, .cursor n)
  | .parameters e => do
    let (x, n) ← x.parameters e
    pure (x, .cursor n)

variable {x : Index}

section
variable {e : Failure} (h : x.admitQuestion = .error e)
include h

theorem admitted_refuses : WorkM.Refuses e (WorkM.ofExcept x.admitQuestion) := by
  rw [h]
  exact fun _ => rfl

theorem openCursor_refuses {α : Type} (finding : α → Finding) (question : StoreM (List α)) :
    WorkM.Refuses e (x.openCursor finding question) :=
  (admitted_refuses h).bind _

theorem emptyCursor_refuses : WorkM.Refuses e x.emptyCursor :=
  (admitted_refuses h).bind _

/-- Whether a question is answered at all does not depend on the question. -/
theorem ask_refuses (q : Question) : WorkM.Refuses e (q.ask x) := by
  cases q with
  | stats =>
    have hstats : WorkM.Refuses e x.stats := (admitted_refuses h).bind _
    exact hstats.bind _
  | entity name file line column =>
    have hentity : WorkM.Refuses e (x.entity? name file line column) := (admitted_refuses h).bind _
    exact hentity.bind _
  | declaration id =>
    have hdeclaration : WorkM.Refuses e (x.declaration id) := (admitted_refuses h).bind _
    exact hdeclaration.bind _
  | entities name file kind =>
    exact (openCursor_refuses h .entity _).bind _
  | references id =>
    have hreferences : WorkM.Refuses e (x.references id) := by
      unfold Index.references
      split
      · exact emptyCursor_refuses h
      · exact openCursor_refuses h _ _
    exact hreferences.bind _
  | parameters id =>
    have hparameters : WorkM.Refuses e (x.parameters id) := by
      unfold Index.parameters
      split
      · exact emptyCursor_refuses h
      · exact openCursor_refuses h _ _
    exact hparameters.bind _

end

section
variable {n : Nat} {id : Nat} (h : x.admitQuestion = .ok id)
include h

theorem admitted_spares : WorkM.Spares n (WorkM.ofExcept x.admitQuestion) := by
  rw [h]
  exact WorkM.Spares.pure id

theorem openCursor_spares {α : Type} (finding : α → Finding) {question : StoreM (List α)}
    (hq : StoreM.Neutral question) : WorkM.Spares n (x.openCursor finding question) :=
  (admitted_spares h).bind fun id => (Index.ask_spares hq id).bind fun _ => WorkM.Spares.pure _

theorem emptyCursor_spares : WorkM.Spares n x.emptyCursor :=
  (admitted_spares h).bind fun _ => WorkM.Spares.pure _

/-- A question that is admitted spares all connections and does not fail for the use of the index. -/
theorem ask_spares (q : Question) : WorkM.Spares n (q.ask x) := by
  have hquery {α : Type} (tables : List Table) (numbers : List Int) (answer : Contents → α) :
      StoreM.Neutral (StoreM.query tables numbers answer) := StoreM.Neutral.query _ _ _
  cases q with
  | stats =>
    have hstats : WorkM.Spares n x.stats :=
      (admitted_spares h).bind fun id => Index.ask_spares Store.stats_neutral id
    exact hstats.bind fun _ => WorkM.Spares.pure _
  | entity name file line column =>
    have hentity : WorkM.Spares n (x.entity? name file line column) :=
      (admitted_spares h).bind fun id => (Index.ask_spares (hquery _ _ _) id).bind fun _ =>
        WorkM.Spares.pure _
    exact hentity.bind fun _ => WorkM.Spares.pure _
  | declaration id =>
    have hdeclaration : WorkM.Spares n (x.declaration id) := by
      refine (admitted_spares h).bind fun id => ?_
      split
      · exact WorkM.Spares.pure _
      next number _ =>
        refine (Index.ask_spares (Store.entity?_neutral number) id).bind fun info => ?_
        cases info <;> exact WorkM.Spares.pure _
    exact hdeclaration.bind fun _ => WorkM.Spares.pure _
  | entities name file kind =>
    exact (openCursor_spares h .entity (hquery _ _ _)).bind fun _ => WorkM.Spares.pure _
  | references id =>
    have hreferences : WorkM.Spares n (x.references id) := by
      unfold Index.references
      split
      · exact emptyCursor_spares h
      · exact openCursor_spares h .reference (hquery _ _ _)
    exact hreferences.bind fun _ => WorkM.Spares.pure _
  | parameters id =>
    have hparameters : WorkM.Spares n (x.parameters id) := by
      unfold Index.parameters
      split
      · exact emptyCursor_spares h
      · exact openCursor_spares h .parameter (hquery _ _ _)
    exact hparameters.bind fun _ => WorkM.Spares.pure _

end

/-- The index is as before, or it handed out a cursor of its present generation. -/
def Leaves (x x' : Index) : Prop :=
  x' = x ∨ ∃ c : HeldCursor, c.cursor.Apt ∧ c.generation = x.generation ∧ c.held = true ∧ x' = (x.handOut c).1

theorem openCursor_leaves {α : Type} (finding : α → Finding) (question : StoreM (List α)) :
    WorkM.Yields (x.openCursor finding question) fun r => Leaves x r.1 := by
  refine (WorkM.Yields.trivial _).bind fun id _ => (WorkM.Yields.trivial _).bind fun rows _ =>
    WorkM.Yields.pure (.inr ?_)
  exact ⟨⟨.ofRows (rows.map finding), x.generation, some id, true⟩, Cursor.ofRows_apt _, rfl, rfl, rfl⟩

theorem emptyCursor_leaves : WorkM.Yields x.emptyCursor fun r => Leaves x r.1 := by
  refine (WorkM.Yields.trivial _).bind fun _ _ => WorkM.Yields.pure (.inr ?_)
  exact ⟨⟨.ofRows [], x.generation, none, true⟩, Cursor.ofRows_apt _, rfl, rfl, rfl⟩

theorem ask_leaves (q : Question) : WorkM.Yields (q.ask x) fun r => Leaves x r.1 := by
  have hsame {α : Type} (y : WorkM α) (f : α → Answer) :
      WorkM.Yields (do pure (x, f (← y))) fun r => Leaves x r.1 :=
    (WorkM.Yields.trivial y).bind fun _ _ => WorkM.Yields.pure (.inl rfl)
  cases q with
  | stats => exact hsame x.stats .stats
  | entity name file line column => exact hsame (x.entity? name file line column) .entity
  | declaration id => exact hsame (x.declaration id) .declaration
  | entities name file kind =>
    exact (openCursor_leaves .entity _).bind fun _ hleaves => WorkM.Yields.pure hleaves
  | references id =>
    have hreferences : WorkM.Yields (x.references id) fun r => Leaves x r.1 := by
      unfold Index.references
      split
      · exact emptyCursor_leaves
      · exact openCursor_leaves _ _
    exact hreferences.bind fun _ hleaves => WorkM.Yields.pure hleaves
  | parameters id =>
    have hparameters : WorkM.Yields (x.parameters id) fun r => Leaves x r.1 := by
      unfold Index.parameters
      split
      · exact emptyCursor_leaves
      · exact openCursor_leaves _ _
    exact hparameters.bind fun _ hleaves => WorkM.Yields.pure hleaves

end Question

end Crossref
