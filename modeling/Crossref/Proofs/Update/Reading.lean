/-
What is read of a plan. The stale artifacts up to the cancellation are attempted,
each once; every unit that comes out is named; and nothing but a number too long
to be read ends the reading.
-/
import Crossref.Proofs.Artifact.Named
import Crossref.Proofs.Ledger

namespace Crossref.Update

variable {t : FileTree} {cancel : Nat → Bool}

/-- A unit is what the file of its artifact holds. -/
theorem readArtifact_ok {path : String} {u : CompilationUnit} (h : readArtifact t path = .ok (.ok u)) :
    ∃ content, t.read path = .ok content ∧ Artifact.readBytes path content = .ok u := by
  unfold readArtifact at h
  split at h
  · exact absurd h (by simp)
  next content hcontent =>
    split at h
    next hread =>
      obtain rfl := Except.ok.inj (Except.ok.inj h)
      exact ⟨content, hcontent, hread⟩
    · exact absurd h (by simp)
    · exact absurd h (by simp)

theorem readArtifact_named {path : String} {u : CompilationUnit}
    (h : readArtifact t path = .ok (.ok u)) : u.Named := by
  obtain ⟨_, -, hread⟩ := readArtifact_ok h
  exact Artifact.readBytes_named hread

/-- A unit has the checksum of the content that it was read from. -/
theorem readArtifact_checksum {path : String} {u : CompilationUnit}
    (h : readArtifact t path = .ok (.ok u)) :
    ∃ content, t.read path = .ok content ∧ u.checksum = Digest.checksum content := by
  obtain ⟨content, hcontent, hread⟩ := readArtifact_ok h
  exact ⟨content, hcontent, Artifact.readBytes_checksum hread⟩

theorem readArtifact_error {path : String} {e : Failure} (h : readArtifact t path = .error e) :
    ∃ n, e = .numeral n := by
  unfold readArtifact at h
  split at h
  · exact absurd h (by simp)
  · split at h
    · exact absurd h (by simp)
    · exact absurd h (by simp)
    · exact ⟨_, (Except.error.inj h).symm⟩

/-- What one step of the reading does, if it is not cancelled. -/
theorem readFrom_cons {total i : Nat} {st : StaleArtifact} {rest : List StaleArtifact}
    (hc : cancel i = false) :
    readFrom t cancel total i (st :: rest) = (do
      let outcome ← readArtifact t st.artifact.path
      let batch ← readFrom t cancel total (i + 1) rest
      let batch := { batch with progress := ⟨i + 1, total, st.artifact.path⟩ :: batch.progress }
      match outcome with
      | .ok u => pure { batch with parsed := (st, u) :: batch.parsed }
      | .error e => pure { batch with failed := (st, e) :: batch.failed }) := by
  rw [readFrom, hc]
  rfl

theorem readFrom_error {total : Nat} {e : Failure} : ∀ {stale : List StaleArtifact} {i : Nat},
    readFrom t cancel total i stale = .error e → ∃ n, e = .numeral n
  | [], i, h => absurd h (by simp [readFrom])
  | st :: rest, i, h => by
    cases hc : cancel i with
    | true => simp [readFrom, hc] at h
    | false =>
      rw [readFrom_cons hc] at h
      cases hread : readArtifact t st.artifact.path with
      | error e' =>
        rw [hread] at h
        obtain rfl := Except.error.inj h
        exact readArtifact_error hread
      | ok outcome =>
        rw [hread] at h
        cases hrest : readFrom t cancel total (i + 1) rest with
        | error e' =>
          rw [hrest] at h
          obtain rfl := Except.error.inj h
          exact readFrom_error hrest
        | ok batch =>
          rw [hrest] at h
          cases outcome <;> exact absurd h (by simp [bind, Except.bind, pure, Except.pure])

/-- The reading of an artifact and of those after it ends at once, for it is cancelled, or adds the
artifact to what the rest gives. -/
theorem readFrom_cons_ok {total i : Nat} {st : StaleArtifact} {rest : List StaleArtifact} {b : ReadBatch}
    (h : readFrom t cancel total i (st :: rest) = .ok b) :
    (b.parsed = [] ∧ b.failed = []) ∨
      ∃ batch, readFrom t cancel total (i + 1) rest = .ok batch ∧
        ((∃ u, readArtifact t st.artifact.path = .ok (.ok u) ∧ b.parsed = (st, u) :: batch.parsed ∧
            b.failed = batch.failed) ∨
          ∃ e, b.parsed = batch.parsed ∧ b.failed = (st, e) :: batch.failed) := by
  cases hc : cancel i with
  | true =>
    simp only [readFrom, hc, if_true, Except.ok.injEq] at h
    subst h
    exact .inl ⟨rfl, rfl⟩
  | false =>
    rw [readFrom_cons hc] at h
    cases hread : readArtifact t st.artifact.path with
    | error e =>
      rw [hread] at h
      exact absurd h (by simp [bind, Except.bind])
    | ok outcome =>
      rw [hread] at h
      cases hrest : readFrom t cancel total (i + 1) rest with
      | error e =>
        rw [hrest] at h
        exact absurd h (by simp [bind, Except.bind])
      | ok batch =>
        rw [hrest] at h
        refine .inr ⟨batch, rfl, ?_⟩
        cases outcome with
        | ok u =>
          obtain rfl := Except.ok.inj h
          exact .inl ⟨u, rfl, rfl, rfl⟩
        | error e =>
          obtain rfl := Except.ok.inj h
          exact .inr ⟨e, rfl, rfl⟩

/-- What is parsed was stale, and is what its file holds. -/
theorem readFrom_parsed {total : Nat} {b : ReadBatch} : ∀ {stale : List StaleArtifact} {i : Nat},
    readFrom t cancel total i stale = .ok b →
      ∀ p ∈ b.parsed, p.1 ∈ stale ∧ readArtifact t p.1.artifact.path = .ok (.ok p.2)
  | [], i, h => by
    obtain rfl := Except.ok.inj h
    simp
  | st :: rest, i, h => by
    rcases readFrom_cons_ok h with ⟨hnone, -⟩ | ⟨batch, hrest, hst⟩
    · simp [hnone]
    · have hbefore (p : StaleArtifact × CompilationUnit) (hp : p ∈ batch.parsed) :
          p.1 ∈ st :: rest ∧ readArtifact t p.1.artifact.path = .ok (.ok p.2) :=
        (readFrom_parsed hrest p hp).imp_left (List.mem_cons_of_mem st)
      rcases hst with ⟨u, hread, hparsed, -⟩ | ⟨e, hparsed, -⟩
      · rw [hparsed]
        intro p hp
        rcases List.mem_cons.1 hp with rfl | hp
        · exact ⟨by simp, hread⟩
        · exact hbefore p hp
      · rw [hparsed]
        exact hbefore

/-- What was attempted is a part of what is stale. -/
theorem readFrom_attempted {total : Nat} {b : ReadBatch} : ∀ {stale : List StaleArtifact} {i : Nat},
    readFrom t cancel total i stale = .ok b → ∃ left, (b.attempted ++ left).Perm stale
  | [], i, h => by
    obtain rfl := Except.ok.inj h
    exact ⟨[], .refl _⟩
  | st :: rest, i, h => by
    unfold ReadBatch.attempted
    rcases readFrom_cons_ok h with ⟨hparsed, hfailed⟩ | ⟨batch, hrest, hst⟩
    · rw [hparsed, hfailed]
      exact ⟨st :: rest, .refl _⟩
    · obtain ⟨left, hperm⟩ := readFrom_attempted hrest
      rcases hst with ⟨u, -, hparsed, hfailed⟩ | ⟨e, hparsed, hfailed⟩
      · rw [hparsed, hfailed]
        exact ⟨left, hperm.cons st⟩
      · rw [hparsed, hfailed]
        have hmiddle : ((batch.parsed.map (·.1) ++ st :: batch.failed.map (·.1)) ++ left).Perm
            (st :: ((batch.parsed.map (·.1) ++ batch.failed.map (·.1)) ++ left)) := by
          rw [List.append_assoc, List.append_assoc]
          exact List.perm_middle
        exact ⟨left, hmiddle.trans (hperm.cons st)⟩

/-- The units that were read are named, and what was attempted is a part of what is stale. -/
theorem readFrom_ok {total : Nat} {b : ReadBatch} {stale : List StaleArtifact} {i : Nat}
    (h : readFrom t cancel total i stale = .ok b) :
    (∀ u ∈ b.units, u.Named) ∧ ∃ left, (b.attempted ++ left).Perm stale := by
  refine ⟨fun u hu => ?_, readFrom_attempted h⟩
  obtain ⟨p, hp, rfl⟩ := List.mem_map.1 hu
  exact readArtifact_named (readFrom_parsed h p hp).2

end Crossref.Update
