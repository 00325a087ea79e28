/-
An update with somebody who follows it. Before each stale artifact the caller is
asked whether to go on, and hears of each one that is read; both calls may change
what the caller knows, and hearing may raise, which is not passed on. So of the
caller only the answers matter to the update, and of the update the caller sees the
calls that the reports list.
-/
import Crossref.Proofs.Store.Outcome
import Crossref.Proofs.Update.Reading

namespace Crossref

/-- Somebody who follows an update, and knows a `σ`. -/
structure Caller (σ : Type) where
  cancelled : StateM σ Bool
  told : Progress → ExceptT Failure (StateM σ) PUnit

inductive Caller.Call where
  | ask
  | tell (report : Progress)
  deriving DecidableEq, Repr

variable {σ : Type}

/-- What the caller knows after a call, whether it raises or not. -/
def Caller.hear (caller : Caller σ) (known : σ) : Caller.Call → σ
  | .ask => (caller.cancelled known).2
  | .tell report => (caller.told report known).2

def Caller.hearAll (caller : Caller σ) (known : σ) (calls : List Caller.Call) : σ :=
  calls.foldl caller.hear known

namespace Update

/-- The reports of artifacts that are all read, the first one with the number `i`. -/
def reportsFrom (total : Nat) : Nat → List StaleArtifact → List Progress
  | _, [] => []
  | i, st :: rest => ⟨i + 1, total, st.artifact.path⟩ :: reportsFrom total (i + 1) rest

/-- The calls that go with reports: of each artifact the caller hears after it was asked. -/
def callsOf (reports : List Progress) : List Caller.Call :=
  reports.flatMap fun report => [.ask, .tell report]

/-- The calls of a whole update; unless everything was read, the caller was asked once more. -/
def calls (total : Nat) (reports : List Progress) : List Caller.Call :=
  callsOf reports ++ if reports.length < total then [.ask] else []

/-- Reads the stale artifacts and calls the caller on the way. -/
def readCalling (t : FileTree) (caller : Caller σ) (total i : Nat) :
    List StaleArtifact → StateM σ (Except Failure ReadBatch)
  | [] => pure (.ok {})
  | s :: rest => do
    if ← caller.cancelled then pure (.ok { cancelled := rest.length + 1 })
    else
      -- what the caller raises is not passed on
      let _ ← (caller.told ⟨i + 1, total, s.artifact.path⟩).run
      match readArtifact t s.artifact.path with
      | .error e => pure (.error e)
      | .ok outcome =>
        match ← readCalling t caller total (i + 1) rest with
        | .error e => pure (.error e)
        | .ok batch =>
          let batch := { batch with progress := ⟨i + 1, total, s.artifact.path⟩ :: batch.progress }
          match outcome with
          | .ok u => pure (.ok { batch with parsed := (s, u) :: batch.parsed })
          | .error e => pure (.ok { batch with failed := (s, e) :: batch.failed })

/-- Carries out a plan with a caller; answers also what the caller knows in the end. -/
def applyCalling (t : FileTree) (caller : Caller σ) (known : σ) (now : Int) (plan : UpdatePlan) :
    StoreM ((UpdateStats × List Progress) × σ) :=
  match readCalling t caller plan.stale.length 0 plan.stale known with
  | (.error e, _) => throw e
  | (.ok batch, known) => do
    let stats ← merge plan batch now
    pure ((stats, batch.progress), known)

/-- The answers of the caller before each artifact, as long as it is asked. -/
def answers (caller : Caller σ) (known : σ) (stale : List StaleArtifact) (i : Nat) : Bool :=
  (caller.cancelled (caller.hearAll known (callsOf (reportsFrom stale.length 0 (stale.take i))))).1

variable {t : FileTree} {caller : Caller σ} {total : Nat}

/-- What is read of one artifact, before what is read of the others. -/
def addRead (total i : Nat) (st : StaleArtifact) (outcome : Except FileError CompilationUnit) (batch : ReadBatch) :
    ReadBatch :=
  let batch := { batch with progress := ⟨i + 1, total, st.artifact.path⟩ :: batch.progress }
  match outcome with
  | .ok u => { batch with parsed := (st, u) :: batch.parsed }
  | .error e => { batch with failed := (st, e) :: batch.failed }

theorem progress_addRead (total i : Nat) (st : StaleArtifact) (outcome : Except FileError CompilationUnit)
    (batch : ReadBatch) :
    (addRead total i st outcome batch).progress = ⟨i + 1, total, st.artifact.path⟩ :: batch.progress := by
  cases outcome <;> rfl

theorem readFrom_stop {cancel : Nat → Bool} {i : Nat} {st : StaleArtifact} {rest : List StaleArtifact}
    (h : cancel i = true) : readFrom t cancel total i (st :: rest) = .ok { cancelled := rest.length + 1 } := by
  rw [readFrom, h]
  rfl

theorem readFrom_step {cancel : Nat → Bool} {i : Nat} {st : StaleArtifact} {rest : List StaleArtifact}
    (h : cancel i = false) : readFrom t cancel total i (st :: rest) =
      match readArtifact t st.artifact.path with
      | .error e => .error e
      | .ok outcome =>
        match readFrom t cancel total (i + 1) rest with
        | .error e => .error e
        | .ok batch => .ok (addRead total i st outcome batch) := by
  rw [readFrom_cons h]
  cases readArtifact t st.artifact.path with
  | error e => rfl
  | ok outcome =>
    cases readFrom t cancel total (i + 1) rest with
    | error e => rfl
    | ok batch => cases outcome <;> rfl

section
variable {i : Nat} {st : StaleArtifact} {rest : List StaleArtifact} {known : σ}

theorem state_bind_apply {α β : Type} (x : StateM σ α) (f : α → StateM σ β) (known : σ) :
    (x >>= f) known = f (x known).1 (x known).2 := rfl

theorem readCalling_stop (h : (caller.cancelled known).1 = true) :
    readCalling t caller total i (st :: rest) known =
      (.ok { cancelled := rest.length + 1 }, caller.hear known .ask) := by
  rw [readCalling, state_bind_apply, h]
  rfl

theorem readCalling_step (h : (caller.cancelled known).1 = false) :
    readCalling t caller total i (st :: rest) known =
      let known := caller.hearAll known [.ask, .tell ⟨i + 1, total, st.artifact.path⟩]
      match readArtifact t st.artifact.path with
      | .error e => (.error e, known)
      | .ok outcome =>
        match readCalling t caller total (i + 1) rest known with
        | (.error e, known) => (.error e, known)
        | (.ok batch, known) => (.ok (addRead total i st outcome batch), known) := by
  have hheard : caller.hearAll known [.ask, .tell ⟨i + 1, total, st.artifact.path⟩] =
    ((caller.told ⟨i + 1, total, st.artifact.path⟩).run (caller.cancelled known).2).2 := rfl
  rw [readCalling, state_bind_apply, h, hheard]
  simp only [Bool.false_eq_true, if_false]
  rw [state_bind_apply]
  cases readArtifact t st.artifact.path with
  | error e => rfl
  | ok outcome =>
    dsimp only
    rw [state_bind_apply]
    rcases readCalling t caller total (i + 1) rest _ with ⟨e | batch, known'⟩
    · rfl
    · cases outcome <;> rfl

end

/-- **Reading with a caller is reading with its answers, and the caller sees the calls of the reports.** -/
theorem readCalling_eq {cancel : Nat → Bool} : ∀ {stale : List StaleArtifact} {i : Nat} {known : σ},
    (∀ j < stale.length, cancel (i + j) =
      (caller.cancelled (caller.hearAll known (callsOf (reportsFrom total i (stale.take j))))).1) →
    (readCalling t caller total i stale known).1 = readFrom t cancel total i stale ∧
      ∀ b, readFrom t cancel total i stale = .ok b →
        (readCalling t caller total i stale known).2 = caller.hearAll known (calls stale.length b.progress)
  | [], i, known, _ => ⟨rfl, fun b h => by
    obtain rfl := Except.ok.inj h
    rfl⟩
  | st :: rest, i, known, h => by
    have hfirst : cancel i = (caller.cancelled known).1 := h 0 (Nat.succ_pos _)
    cases hc : (caller.cancelled known).1 with
    | true =>
      rw [readCalling_stop hc, readFrom_stop (hfirst.trans hc)]
      refine ⟨rfl, fun b hb => ?_⟩
      obtain rfl := Except.ok.inj hb
      rfl
    | false =>
      let heard := caller.hearAll known [.ask, .tell ⟨i + 1, total, st.artifact.path⟩]
      have hrests : ∀ j < rest.length, cancel (i + 1 + j) =
          (caller.cancelled (caller.hearAll heard (callsOf (reportsFrom total (i + 1) (rest.take j))))).1 := by
        intro j hj
        rw [Nat.add_right_comm, Nat.add_assoc]
        exact h (j + 1) (Nat.succ_lt_succ hj)
      have ih := readCalling_eq hrests
      rw [readCalling_step hc, readFrom_step (hfirst.trans hc)]
      cases hread : readArtifact t st.artifact.path with
      | error e => exact ⟨rfl, fun b hb => nomatch hb⟩
      | ok outcome =>
        dsimp only
        obtain ⟨hbatch, hknown⟩ := ih
        rcases hrest : readCalling t caller total (i + 1) rest _ with ⟨r, known'⟩
        rw [hrest] at hbatch hknown
        rw [← hbatch]
        cases r with
        | error e => exact ⟨rfl, fun b hb => nomatch hb⟩
        | ok batch =>
          refine ⟨rfl, fun b hb => ?_⟩
          obtain rfl := Except.ok.inj hb
          rw [progress_addRead]
          simp only [calls, List.length_cons, Nat.add_lt_add_iff_right]
          exact hknown batch hbatch.symm

variable {s s' : Store}

/-- **To carry out a plan with a caller is to carry it out with the answers of the caller.** Whether it
raises makes no difference. -/
theorem applyCalling_ok_iff {known known' : σ} {now : Int} {p : UpdatePlan} {stats : UpdateStats}
    {reports : List Progress} :
    applyCalling t caller known now p s = (.ok ((stats, reports), known'), s') ↔
      apply t (answers caller known p.stale) now p s = (.ok (stats, reports), s') ∧
        known' = caller.hearAll known (calls p.stale.length reports) := by
  have hanswers : ∀ j < p.stale.length, answers caller known p.stale (0 + j) =
      (caller.cancelled (caller.hearAll known (callsOf (reportsFrom p.stale.length 0 (p.stale.take j))))).1 := by
    intro j _
    rw [Nat.zero_add]
    rfl
  obtain ⟨hread, hknown⟩ := readCalling_eq (t := t) hanswers
  unfold applyCalling apply readStale
  rcases hr : readCalling t caller p.stale.length 0 p.stale known with ⟨e | batch, known₁⟩ <;>
    rw [hr] at hread hknown <;> simp only [← hread]
  · exact ⟨nofun, fun h => nomatch h.1⟩
  · obtain rfl : known₁ = _ := hknown batch hread.symm
    rw [StoreM.bind_apply, StoreM.bind_apply]
    rcases merge p batch now s with ⟨e | answer, s₁⟩
    · exact ⟨nofun, fun h => nomatch h.1⟩
    · constructor
      · intro h
        obtain ⟨hok, rfl⟩ := Prod.mk.inj h
        obtain ⟨hpair, rfl⟩ := Prod.mk.inj (Except.ok.inj hok)
        obtain ⟨rfl, rfl⟩ := Prod.mk.inj hpair
        exact ⟨rfl, rfl⟩
      · rintro ⟨h, rfl⟩
        obtain ⟨hok, rfl⟩ := Prod.mk.inj h
        obtain ⟨rfl, rfl⟩ := Prod.mk.inj (Except.ok.inj hok)
        rfl

end Update

end Crossref
