/-
How a merge is put together of the statements of its store. What passes from
operations to what is put together of them holds of the linking and the writing of
units if it holds of the statements. So a merge acts on the contents of its store
alone, what it leaves succeeds what was there, and at another time it does the same
but for the times.
-/
import Crossref.Proofs.Store.Ids
import Crossref.Proofs.Store.Times
import Crossref.Proofs.Update.Writing

namespace Crossref

open StoreM Contents

namespace StoreM.Composes

variable {P : {α : Type} → StoreM α → Prop} (h : Composes P)
include h

/-! ## Linking -/

section
variable (hfind : ∀ key, P (Store.findEntity key)) (t : KeyTable)
include hfind

theorem lookup (key : EntityKey) (memo : Memo) : P (t.lookup (some Store.findEntity) key memo) := by
  cases hget : t.get? key with
  | some id =>
    rw [KeyTable.lookup_of_registered hget]
    exact h.pure _
  | none =>
    cases hlookup : memo.lookup key with
    | some answer =>
      rw [KeyTable.lookup_of_remembered hget hlookup]
      exact h.pure _
    | none =>
      rw [KeyTable.lookup_of_new hget hlookup]
      exact h.bind (hfind key) fun _ => h.pure _

theorem link (key : EntityKey) (memo : Memo) : P (Crossref.link t (some Store.findEntity) key memo) := by
  refine h.bind (h.lookup hfind t key memo) fun a => ?_
  rcases a with ⟨answer | id, memo'⟩ <;> exact h.pure _

theorem linkReference (r : Reference) (memo : Memo) :
    P (Crossref.linkReference t (some Store.findEntity) r memo) :=
  h.bind (h.link hfind t r.target memo) fun a =>
    h.bind (h.option_state (h.link hfind t) a.2) fun _ => h.pure _

theorem linkParameter (p : Parameter) (memo : Memo) :
    P (Crossref.linkParameter t (some Store.findEntity) p memo) :=
  h.bind (h.link hfind t p.key memo) fun _ => h.pure _

theorem linkUnit (u : CompilationUnit) (memo : Memo) :
    P (Crossref.linkUnit t (some Store.findEntity) u memo) :=
  h.bind (h.mapM_state (h.linkReference hfind t) u.references memo) fun references =>
    h.bind (h.mapM_state (h.linkParameter hfind t) u.ownParameters references.2) fun _ => h.pure _

end

section
variable (hensure : ∀ path, P (Store.ensureFile path))
  (hput : ∀ name kind fileId line column, P (Store.putEntity name kind fileId line column))
include hensure hput

theorem registerDeclaration (d : Declaration) : P (Update.registerDeclaration d) :=
  h.bind (hensure d.key.file) fun file => hput d.key.name d.kind file d.key.line d.key.column

theorem register (units : List CompilationUnit) : P (Crossref.register Update.registerDeclaration units) :=
  h.foldlM (fun _ d => h.bind (h.registerDeclaration hensure hput d) fun _ => h.pure _) _ _

theorem linkBatch (hfind : ∀ key, P (Store.findEntity key)) (units : List CompilationUnit) :
    P (Crossref.linkBatch Update.registerDeclaration (some Store.findEntity) units) := by
  refine h.bind (h.register hensure hput units) fun t => ?_
  exact h.bind (h.mapM_state (h.linkUnit hfind t) units []) fun out => h.pure out.1

end

/-! ## Writing -/

section
variable (hensure : ∀ path, P (Store.ensureFile path))
include hensure

theorem fileId (path : String) (ids : Update.FileIds) : P (Update.fileId path ids) := by
  cases hlookup : ids.lookup path with
  | some id =>
    rw [Update.fileId_of_known hlookup]
    exact h.pure _
  | none =>
    rw [Update.fileId_of_new hlookup]
    exact h.bind (hensure path) fun _ => h.pure _

theorem storedLink (l : Link) (ids : Update.FileIds) : P (Update.storedLink l ids) := by
  cases l with
  | linked id => exact h.pure _
  | pending key => exact h.bind (h.fileId hensure key.file ids) fun _ => h.pure _

theorem referenceRow (artifactId : Int) (r : LinkedReference) (ids : Update.FileIds) :
    P (Update.referenceRow artifactId r ids) :=
  h.bind (h.fileId hensure r.location.file ids) fun file =>
    h.bind (h.storedLink hensure r.target file.2) fun target =>
      h.bind (h.option_state (h.storedLink hensure) target.2) fun _ => h.pure _

theorem parameterRow (artifactId : Int) (p : LinkedParameter) (ids : Update.FileIds) :
    P (Update.parameterRow artifactId p ids) :=
  h.bind (h.storedLink hensure p.parameter ids) fun _ => h.pure _

theorem writeReferences (hadd : ∀ rows, P (Store.addReferences rows)) (artifactId : Int) (u : LinkedUnit)
    (ids : Update.FileIds) : P (Update.writeReferences artifactId u ids) :=
  h.bind (h.mapM_state (h.referenceRow hensure artifactId) u.references ids) fun rows =>
    h.lift_state (hadd rows.1) rows.2

theorem writeParameters (hput : ∀ rows, P (Store.putParameters rows)) (artifactId : Int) (u : LinkedUnit)
    (ids : Update.FileIds) : P (Update.writeParameters artifactId u ids) :=
  h.bind (h.mapM_state (h.parameterRow hensure artifactId) u.parameters ids) fun rows =>
    h.lift_state (hput rows.1) rows.2

theorem writeLinks (hadd : ∀ rows, P (Store.addReferences rows)) (hput : ∀ rows, P (Store.putParameters rows))
    (artifactId : Int) (u : LinkedUnit) :
    P (StateT.run' (do Update.writeReferences artifactId u; Update.writeParameters artifactId u)
      ([] : Update.FileIds)) :=
  h.bind (h.bind (h.writeReferences hensure hadd artifactId u []) fun a =>
    h.writeParameters hensure hput artifactId u a.2) fun _ => h.pure _

end

theorem writeFiles (hput : ∀ new, P (Store.putFile new))
    (hstamp : ∀ path stamp checksum, P (Store.stampFile path stamp checksum))
    (hreplace : ∀ id rows, P (Store.replaceDependencies id rows)) (a : ArtifactFile) (u : CompilationUnit) :
    P (Update.writeFiles a u) := by
  refine h.bind (hput _) fun artifactId => ?_
  refine h.bind (h.forM (fun path => ?_) u.sourceFiles) fun _ => ?_
  · exact h.bind (hput (Update.sourceRecord u a.runtime path)) fun _ => h.pure _
  refine h.bind (h.mapM (fun d => ?_) u.dependencies) fun dependencies => ?_
  · exact h.bind (hstamp d.path d.stamp d.checksum) fun _ => h.pure _
  exact h.bind (hreplace artifactId dependencies) fun _ => h.pure _

/-! ## Artifacts that are recorded -/

theorem purge (hfind : ∀ path, P (Store.fileId? path)) (hpurge : ∀ id, P (Store.purgeArtifact id)) (path : String) :
    P (Update.purge path) := by
  refine h.bind (hfind path) fun found => ?_
  cases found with
  | none => exact h.pure _
  | some id => exact hpurge id

theorem touch (hfind : ∀ path, P (Store.fileId? path)) (htouch : ∀ id mtime, P (Store.touchArtifact id mtime))
    (path : String) (mtime : Int) : P (Update.touch path mtime) := by
  refine h.bind (hfind path) fun found => ?_
  cases found with
  | none => exact h.pure _
  | some id => exact htouch id mtime

end StoreM.Composes

/-! ## Merging -/

namespace Update

theorem keeping {α : Type} {x : StoreM α} (h : Acts SameIds x) : Acts KeepsIds x :=
  h.mono fun _ _ => SameIds.keepsIds

theorem writeUnit_acts (now : Int) (st : StaleArtifact) (u : LinkedUnit) :
    Acts KeepsIds (writeUnit now st u) := by
  refine (Acts.composes.writeFiles Store.putFile_acts Store.stampFile_acts
    (fun id rows => keeping (Store.replaceDependencies_acts id rows)) st.artifact u.unit).bind fun artifactId => ?_
  refine (keeping (Store.putDeclarations_acts _)).bind fun _ => ?_
  refine (Acts.composes.writeLinks Store.ensureFile_acts (fun rows => keeping (Store.addReferences_acts rows))
    (fun rows => keeping (Store.putParameters_acts rows)) artifactId u).bind fun _ => ?_
  exact keeping (Store.recordArtifact_acts _)

/-- **A merge acts on the contents of its store alone, and what it leaves succeeds what was
there.** -/
theorem mergeBatch_acts (b : ReadBatch) (touched : List (String × Int)) (now : Int) :
    Acts Succeeds (mergeBatch b touched now) := by
  -- what comes before the orphans go keeps all ids, what comes after leaves them alone
  have hseq {α : Type} {x : StoreM α} {f : α → StoreM MergeCounts} (hx : Acts KeepsIds x)
      (hf : ∀ a, Acts Succeeds (f a)) : Acts Succeeds (x >>= f) :=
    hx.seq hf (fun _ _ h => h.toSucceeds) fun _ _ _ => KeepsIds.succeeds
  refine hseq (Acts.composes.forM (fun st => keeping ?_) b.attempted) fun _ => ?_
  · exact Acts.composes.purge (fun _ => Acts.query _ _ _) Store.purgeArtifact_acts st.artifact.path
  refine hseq (Acts.composes.forM (fun t => keeping ?_) touched) fun _ => ?_
  · exact Acts.composes.touch (fun _ => Acts.query _ _ _) Store.touchArtifact_acts t.1 t.2
  refine hseq (Acts.composes.linkBatch Store.ensureFile_acts Store.putEntity_acts (fun _ => Acts.query _ _ _)
    b.units) fun linked => ?_
  refine hseq (Acts.composes.forM (fun p => ?_) ((b.parsed.map (·.1)).zip linked)) fun _ => ?_
  · exact writeUnit_acts now p.1 p.2
  refine hseq (keeping Store.detachUndeclared_acts) fun _ => ?_
  refine Store.pruneOrphans_acts.seq (fun pruned => ?_) (fun _ _ h => h) fun _ _ _ => Succeeds.sameIds
  refine Store.relinkPending_acts.bind fun relinked => ?_
  split
  · exact (Store.markIndexed_acts now).before fun _ => Acts.pure _
  · exact Acts.pure _

theorem writeUnit_timeless (now now' : Int) (st : StaleArtifact) (u : LinkedUnit) :
    Timeless (writeUnit now st u) (writeUnit now' st u) := by
  refine (Timeless.composes.writeFiles Store.putFile_timeless Store.stampFile_timeless
    Store.replaceDependencies_timeless st.artifact u.unit).bind fun artifactId => ?_
  refine (Store.putDeclarations_timeless _).bind fun _ => ?_
  refine (Timeless.composes.writeLinks Store.ensureFile_timeless Store.addReferences_timeless
    Store.putParameters_timeless artifactId u).bind fun _ => ?_
  exact Store.recordArtifact_timeless rfl rfl

/-- **At another time a merge does the same but for the times.** -/
theorem mergeBatch_timeless (b : ReadBatch) (touched : List (String × Int)) (now now' : Int) :
    Timeless (mergeBatch b touched now) (mergeBatch b touched now') := by
  have hfind (path : String) : Timeless (Store.fileId? path) (Store.fileId? path) := Timeless.query _ _ fun _ => rfl
  refine (Timeless.forM (fun st => ?_) b.attempted).bind fun _ => ?_
  · exact Timeless.composes.purge hfind Store.purgeArtifact_timeless st.artifact.path
  refine (Timeless.forM (fun t => ?_) touched).bind fun _ => ?_
  · exact Timeless.composes.touch hfind Store.touchArtifact_timeless t.1 t.2
  refine (Timeless.composes.linkBatch Store.ensureFile_timeless Store.putEntity_timeless Store.findEntity_timeless
    b.units).bind fun linked => ?_
  refine (Timeless.forM (fun p => ?_) ((b.parsed.map (·.1)).zip linked)).bind fun _ => ?_
  · exact writeUnit_timeless now now' p.1 p.2
  refine Store.detachUndeclared_timeless.bind fun _ => Store.pruneOrphans_timeless.bind fun pruned => ?_
  refine Store.relinkPending_timeless.bind fun relinked => ?_
  split
  · exact (Store.markIndexed_timeless now now').bind fun _ => Timeless.pure _
  · exact Timeless.pure _

end Update

end Crossref
