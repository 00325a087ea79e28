/-
The invariant of the store. After every update, whatever was planned, read,
cancelled or refused, the rows of the seven tables fit together: each entity is
declared once and known by its place, each row belongs to a recorded artifact,
each link leads to an entity or waits with its full key, and nothing waits for an
entity that is there. An update that fails fails for a number, never because a row
is refused.
-/
import Crossref.Proofs.Merges
import Crossref.Proofs.Update.History

namespace Crossref

/-- All four parts of the key are there. -/
def PendingKey.Full (k : PendingKey) : Prop :=
  ∃ name file line column, k = ⟨some name, some file, some line, some column⟩

namespace Contents

/-- The links in the rows of references and parameters. -/
def links (c : Contents) : List StoredLink :=
  c.references.map (·.target) ++ c.references.map (·.scope) ++ c.parameters.map (·.parameter)

def HasArtifact (c : Contents) (id : Int) : Prop :=
  ∃ a ∈ c.artifacts, a.fileId = id

/-- The rows of all tables fit together. -/
structure Consistent (c : Contents) : Prop where
  /-- No two entities share name, file, line and column. -/
  places : (c.entities.map fun e => (e.name, c.filePath? e.fileId, e.line, e.column)).Nodup
  declaredOnce : ∀ e ∈ c.entities, c.declarations.countP (·.entityId = e.id) = 1
  declaredEntity : ∀ d ∈ c.declarations, c.hasEntity d.entityId = true
  ownerEntity : ∀ p ∈ c.parameters, c.hasEntity p.ownerId = true
  declarationArtifact : ∀ d ∈ c.declarations, c.HasArtifact d.artifactId
  referenceArtifact : ∀ r ∈ c.references, c.HasArtifact r.artifactId
  parameterArtifact : ∀ p ∈ c.parameters, c.HasArtifact p.artifactId
  dependencyArtifact : ∀ d ∈ c.dependencies, c.HasArtifact d.artifactId
  /-- A link that is made leads to an entity and awaits nothing. -/
  linked : ∀ l ∈ c.links, ∀ id ∈ l.id, c.hasEntity id = true ∧ l.pending = {}
  targets : ∀ r ∈ c.references, r.target.id = none → r.target.pending.Full
  parameters : ∀ p ∈ c.parameters, p.parameter.id = none → p.parameter.pending.Full
  scopes : ∀ r ∈ c.references, r.scope.id = none → r.scope.pending = {} ∨ r.scope.pending.Full
  /-- No entity that is awaited is there. -/
  awaited : ∀ l ∈ c.links, ∀ e ∈ c.entities, l.pending.accepts e = false

variable {c : Contents} {L : Ledger}

/-! ## The invariant from the ledger -/

theorem Mirrors.hasArtifact (h : c.Mirrors L) {id : Int} {path : String}
    (hid : c.filePath? id = some path) (hp : L.Records path) : c.HasArtifact id := by
  obtain ⟨f, hf, rfl⟩ := hp
  obtain ⟨a, ha, har⟩ := exists_left_of_forall₂ h.artifacts hf
  exact ⟨a, ha, h.sound.path_inj har.path hid⟩

theorem Mirrors.declaredOnce (h : c.Mirrors L) (hkeys : L.Keyed) {e : EntityRow}
    (hdeclared : c.isDeclared e = true) : c.declarations.countP (·.entityId = e.id) = 1 := by
  have hids : (c.declarations.map (·.entityId)).Nodup := by
    refine List.Nodup.of_map c.names.key? ?_
    have hread : (c.declarations.map (·.entityId)).map c.names.key? =
        (L.claims.map (·.key)).map some := by
      rw [List.map_map, List.map_map]
      refine List.forall₂_eq_eq_eq ▸ List.forall₂_map_left_iff.2 (List.forall₂_map_right_iff.2 ?_)
      exact h.claims.imp fun _ _ hr => hr.key
    rw [hread]
    exact hkeys.claims.map fun _ _ heq => Option.some.inj heq
  obtain ⟨d, hd, hid⟩ := List.any_eq_true.1 hdeclared
  have hcount := List.count_eq_one_of_mem hids (List.mem_map_of_mem hd)
  rw [of_decide_eq_true hid, List.count, List.countP_map] at hcount
  exact hcount

theorem Mirrors.hasEntity_of_shows {l : StoredLink} {k : EntityKey} (hl : c.names.Shows l k) {id : Int}
    (hid : l.id = some id) : c.hasEntity id = true ∧ l.pending = {} := by
  obtain ⟨k', hl, -⟩ := hl
  cases hl with
  | linked hk => exact ⟨Option.some.inj hid ▸ hasEntity_of_key? hk, rfl⟩
  | awaiting => exact absurd hid (by simp)

theorem full_of_shows {l : StoredLink} {k : EntityKey} (hl : c.names.Shows l k) (hid : l.id = none) :
    l.pending.Full := by
  obtain ⟨k', hl, -⟩ := hl
  cases hl with
  | linked => exact absurd hid (by simp)
  | awaiting => exact ⟨_, _, _, _, rfl⟩

/-- What a link says, whether it shows a key or is a scope that is missing. -/
theorem Mirrors.shows_of_mem_links (h : c.Mirrors L) {l : StoredLink} (hl : l ∈ c.links) :
    l = {} ∨ ∃ k, c.names.Shows l k := by
  simp only [links, List.mem_append, List.mem_map] at hl
  rcases hl with (⟨r, hr, rfl⟩ | ⟨r, hr, rfl⟩) | ⟨p, hp, rfl⟩
  · obtain ⟨f, -, hf⟩ := exists_right_of_forall₂ h.references hr
    exact .inr ⟨_, hf.target⟩
  · obtain ⟨f, -, hf⟩ := exists_right_of_forall₂ h.references hr
    have hscope := hf.scope
    cases hk : f.scope with
    | none => exact .inl (by rwa [hk] at hscope)
    | some k => exact .inr ⟨k, by rwa [hk] at hscope⟩
  · obtain ⟨f, -, hf⟩ := exists_right_of_forall₂ h.parameters hp
    exact .inr ⟨_, hf.parameter⟩

theorem Settled.awaited? (h : c.Settled) {l : StoredLink} (hl : l ∈ c.links) : l.awaited? c = none := by
  simp only [links, List.mem_append, List.mem_map] at hl
  rcases hl with (⟨r, hr, rfl⟩ | ⟨r, hr, rfl⟩) | ⟨p, hp, rfl⟩
  · exact h.targets r hr
  · exact h.scopes r hr
  · exact h.parameters p hp

theorem accepts_empty (e : EntityRow) : ({} : PendingKey).accepts e = false := by
  simp [PendingKey.accepts]

/-- Contents that mirror a ledger of merges and are settled are consistent. -/
theorem Mirrors.isConsistent (h : c.Mirrors L) (hs : c.Settled) (hrecorded : L.Recorded)
    (hkeyed : L.Keyed) : c.Consistent where
  places := by
    refine h.sound.entityKeys.of_map.map_on fun e he e' he' heq => ?_
    simp only [Prod.mk.injEq] at heq
    obtain ⟨hname, hfile, hline, hcolumn⟩ := heq
    obtain ⟨f, -, hf⟩ := exists_right_of_forall₂ h.entities he
    have hid : e.fileId = e'.fileId := h.sound.path_inj hf.file (hfile ▸ hf.file)
    refine List.inj_on_of_nodup_map h.sound.entityKeys he he' ?_
    simp only [EntityRow.pendingKey, hname, hid, hline, hcolumn]
  declaredOnce e he := h.declaredOnce hkeyed (hs.declared e he)
  declaredEntity d hd := by
    obtain ⟨f, -, hf⟩ := exists_right_of_forall₂ h.claims hd
    exact hasEntity_of_key? hf.key
  ownerEntity p hp := by
    obtain ⟨f, -, hf⟩ := exists_right_of_forall₂ h.parameters hp
    exact hasEntity_of_key? hf.owner
  declarationArtifact d hd := by
    obtain ⟨f, hmem, hf⟩ := exists_right_of_forall₂ h.claims hd
    exact h.hasArtifact hf.artifact (hrecorded.claims f hmem)
  referenceArtifact r hr := by
    obtain ⟨f, hmem, hf⟩ := exists_right_of_forall₂ h.references hr
    exact h.hasArtifact hf.artifact (hrecorded.references f hmem)
  parameterArtifact p hp := by
    obtain ⟨f, hmem, hf⟩ := exists_right_of_forall₂ h.parameters hp
    exact h.hasArtifact hf.artifact (hrecorded.parameters f hmem)
  dependencyArtifact d hd := by
    obtain ⟨f, hmem, hf⟩ := exists_right_of_forall₂ h.dependencies hd
    exact h.hasArtifact hf.artifact (hrecorded.dependencies f hmem)
  linked l hl id hid := by
    rcases h.shows_of_mem_links hl with rfl | ⟨k, hk⟩
    · exact absurd hid (by simp)
    · exact Mirrors.hasEntity_of_shows hk hid
  targets r hr hid := by
    obtain ⟨f, -, hf⟩ := exists_right_of_forall₂ h.references hr
    exact full_of_shows hf.target hid
  parameters p hp hid := by
    obtain ⟨f, -, hf⟩ := exists_right_of_forall₂ h.parameters hp
    exact full_of_shows hf.parameter hid
  scopes r hr hid := by
    have hmem : r.scope ∈ c.links := by
      simp only [links, List.mem_append, List.mem_map]
      exact .inl (.inr ⟨r, hr, rfl⟩)
    rcases h.shows_of_mem_links hmem with hempty | ⟨k, hk⟩
    · exact .inl (by rw [hempty])
    · exact .inr (full_of_shows hk hid)
  awaited l hl e he := by
    cases hid : l.id with
    | some id =>
      have hpending : l.pending = {} := by
        rcases h.shows_of_mem_links hl with rfl | ⟨k, hk⟩
        · rfl
        · exact (Mirrors.hasEntity_of_shows hk hid).2
      rw [hpending]
      exact accepts_empty e
    | none =>
      have hnone := hs.awaited? hl
      simp only [StoredLink.awaited?, hid, Option.isSome_none] at hnone
      simpa using List.find?_eq_none.1 hnone e he

end Contents

/-- A step that does not succeed was refused for a number or for want of ids. -/
theorem UpdateStep.run_cases (a : UpdateStep) {h : History} (hs : h.Sound) :
    (∃ r, (a.run h.store).1 = .ok r) ∨
      (a.run h.store).2.contents = h.store.contents ∧
        ∃ e, (a.run h.store).1 = .error e ∧ (Update.RefusedFor h.store a.batch e ∨ ∃ n, e = .numeral n) := by
  obtain ⟨L, -, hm⟩ := hs.mirrors
  have hruns := a.run_runs hs.idle hm
  unfold StoreM.Runs at hruns
  unfold UpdateStep.run
  rcases hr : Update.apply a.files a.cancel a.now a.plan h.store with ⟨e | r, s⟩
  · simp only [hr] at hruns
    obtain ⟨-, hc, he⟩ := hruns
    exact .inr ⟨hc, e, rfl, he⟩
  · exact .inl ⟨r, rfl⟩

/-- **After every step of every history the rows of the store fit together.** The next step,
whatever it is, succeeds, or it is refused and leaves the rows as they are: for a number that cannot
be read or does not fit, or because some counter has fewer ids left than the step may take. No step is
refused for what a row says. -/
theorem History.consistent (path : String) (steps : List UpdateStep) :
    (run path steps).store.contents.Consistent ∧
      ∀ a : UpdateStep,
        (∃ r, (a.run (run path steps).store).1 = .ok r) ∨
          (a.run (run path steps).store).2.contents = (run path steps).store.contents ∧
            ∃ e, (a.run (run path steps).store).1 = .error e ∧
              (Update.RefusedFor (run path steps).store a.batch e ∨ ∃ n, e = .numeral n) := by
  have hsound := run_sound path steps
  obtain ⟨L, hL, hm⟩ := hsound.mirrors
  exact ⟨hm.isConsistent hsound.settled hL.recorded hL.keyed, fun a => a.run_cases hsound⟩

end Crossref
