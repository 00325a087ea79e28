/-
How many ids a merge takes at most: one for the artifact, each source file, each
dependency and each parameter that a unit keeps, two for each declaration that it
owns and four for each reference.
-/
import Crossref.Proofs.Store.Counters
import Crossref.Proofs.Update.Composition

namespace Crossref

open StoreM

/-- The ids that writing a unit may take. -/
def CompilationUnit.rowDemand (u : CompilationUnit) : Nat :=
  1 + u.sourceFiles.length + u.dependencies.length + u.references.length * 4 + u.ownParameters.length

def CompilationUnit.demand (u : CompilationUnit) : Nat :=
  u.owned.length * 2 + u.rowDemand

/-- The ids that a merge of the batch may take. -/
def ReadBatch.demand (b : ReadBatch) : Nat :=
  (b.units.map (·.demand)).sum

/-! ## Linking -/

/-- The linked unit is the unit, with as many references and parameters. -/
structure LinkedUnit.Shapes (l : LinkedUnit) (u : CompilationUnit) : Prop where
  unit : l.unit = u
  references : l.references.length = u.references.length
  parameters : l.parameters.length = u.ownParameters.length

theorem findEntity_takes (key : EntityKey) : Takes (Store.findEntity key) 0 fun _ => True :=
  Takes.query _ _ _

theorem linkReference_takes (t : KeyTable) (r : Reference) (memo : Memo) :
    Takes (linkReference t (some Store.findEntity) r memo) 0 fun _ => True :=
  Takes.composes.linkReference findEntity_takes t r memo

theorem linkParameter_takes (t : KeyTable) (p : Parameter) (memo : Memo) :
    Takes (linkParameter t (some Store.findEntity) p memo) 0 fun _ => True :=
  Takes.composes.linkParameter findEntity_takes t p memo

theorem linkUnit_takes (t : KeyTable) (u : CompilationUnit) (memo : Memo) :
    Takes (linkUnit t (some Store.findEntity) u memo) 0 fun l => l.1.Shapes u := by
  have hreferences := Takes.mapM_state (P := fun _ _ => True) (linkReference_takes t) u.references memo
  refine Takes.after hreferences fun references hreferences => ?_
  have hparameters :=
    Takes.mapM_state (P := fun _ _ => True) (linkParameter_takes t) u.ownParameters references.2
  refine Takes.after hparameters fun parameters hparameters => ?_
  exact Takes.pure ⟨rfl, hreferences.length_eq.symm, hparameters.length_eq.symm⟩

theorem registerDeclaration_takes (d : Declaration) :
    Takes (Update.registerDeclaration d) 2 fun _ => True :=
  (Store.ensureFile_takes d.key.file).bind (m := 1) fun file _ =>
    Store.putEntity_takes d.key.name d.kind file d.key.line d.key.column

theorem linkBatch_takes (units : List CompilationUnit) :
    Takes (linkBatch Update.registerDeclaration (some Store.findEntity) units)
      ((units.flatMap (·.owned)).length * 2)
      fun linked => List.Forall₂ (fun u l => l.Shapes u) units linked := by
  have hregister : Takes (register Update.registerDeclaration units)
      ((units.flatMap (·.owned)).length * 2) fun _ => True :=
    Takes.foldlM (fun t d => (registerDeclaration_takes d).before fun _ _ => Takes.pure trivial) _ _
  refine hregister.before fun t _ => ?_
  change Takes (units.mapM (linkUnit t (some Store.findEntity)) [] >>= fun out => pure out.1) 0 _
  have hlinked :=
    Takes.mapM_state (P := fun u (l : LinkedUnit) => l.Shapes u) (linkUnit_takes t) units []
  exact Takes.before hlinked fun _ h => Takes.pure h

/-! ## Writing -/

namespace Update

theorem fileId_takes (path : String) (ids : FileIds) : Takes (fileId path ids) 1 fun _ => True := by
  cases hlookup : ids.lookup path with
  | some id =>
    rw [fileId_of_known hlookup]
    exact (Takes.pure trivial).mono (Nat.zero_le 1) fun _ h => h
  | none =>
    rw [fileId_of_new hlookup]
    exact (Store.ensureFile_takes path).before fun _ _ => Takes.pure trivial

theorem storedLink_takes (l : Link) (ids : FileIds) : Takes (storedLink l ids) 1 fun _ => True := by
  cases l with
  | linked id => exact Takes.pure trivial
  | pending key => exact (fileId_takes key.file ids).before fun _ _ => Takes.pure trivial

theorem referenceRow_takes (artifactId : Int) (r : LinkedReference) (ids : FileIds) :
    Takes (referenceRow artifactId r ids) 3 fun _ => True := by
  refine (fileId_takes r.location.file ids).bind (m := 2) fun file _ => ?_
  refine (storedLink_takes r.target file.2).bind (m := 1) fun target _ => ?_
  exact (Takes.option_state (fun l ids => storedLink_takes l ids) target.2).before
    fun _ _ => Takes.pure trivial

theorem parameterRow_takes (artifactId : Int) (p : LinkedParameter) (ids : FileIds) :
    Takes (parameterRow artifactId p ids) 1 fun _ => True :=
  (storedLink_takes p.parameter ids).before fun _ _ => Takes.pure trivial

theorem writeFiles_takes (a : ArtifactFile) (u : CompilationUnit) :
    Takes (writeFiles a u) (1 + u.sourceFiles.length + u.dependencies.length) fun _ => True := by
  rw [Nat.add_assoc]
  refine (Store.putFile_takes _).bind fun artifactId _ => ?_
  have hsources : Takes (u.sourceFiles.forM fun path => do
      let _ ← Store.putFile (sourceRecord u a.runtime path)) u.sourceFiles.length fun _ => True := by
    refine (Takes.forM (fun _ => 1) fun path _ => ?_).mono (by simp) fun _ _ => trivial
    exact (Store.putFile_takes (sourceRecord u a.runtime path)).before fun _ _ => Takes.pure trivial
  refine hsources.bind fun _ _ => ?_
  have hdependencies : Takes (u.dependencies.mapM fun d => do
      let file ← Store.stampFile d.path d.stamp d.checksum
      pure (⟨artifactId, file, d.stamp, d.checksum⟩ : DependencyRow))
      u.dependencies.length fun _ => True := by
    refine (Takes.mapM (n := 1) (P := fun _ _ => True) (fun d => ?_) u.dependencies).mono
      (by simp) fun _ _ => trivial
    exact (Store.stampFile_takes d.path d.stamp d.checksum).before fun _ _ => Takes.pure trivial
  refine hdependencies.before fun dependencies _ => ?_
  exact (Store.replaceDependencies_takes artifactId dependencies).after fun _ _ => Takes.pure trivial

theorem writeUnit_takes (now : Int) (st : StaleArtifact) {l : LinkedUnit} {u : CompilationUnit} (h : l.Shapes u) :
    Takes (writeUnit now st l) u.rowDemand fun _ => True := by
  obtain ⟨rfl, hreferences, hparameters⟩ := h
  unfold CompilationUnit.rowDemand
  rw [Nat.add_assoc, ← hreferences, ← hparameters]
  refine (writeFiles_takes st.artifact l.unit).bind fun artifactId _ => ?_
  refine (Store.putDeclarations_takes _).after fun _ _ => ?_
  have hlinks : Takes (StateT.run' (do writeReferences artifactId l; writeParameters artifactId l)
      ([] : FileIds)) (l.references.length * 4 + l.parameters.length) fun _ => True := by
    have hreferences (ids : FileIds) :
        Takes (writeReferences artifactId l ids) (l.references.length * 4) fun _ => True := by
      have hrows :=
        Takes.mapM_state (P := fun _ _ => True) (referenceRow_takes artifactId) l.references ids
      refine hrows.bind (m := l.references.length) fun rows hlength => ?_
      rw [hlength.length_eq]
      exact (Store.addReferences_takes rows.1).lift_state rows.2
    have hparameters (ids : FileIds) :
        Takes (writeParameters artifactId l ids) l.parameters.length fun _ => True := by
      have hrows :=
        Takes.mapM_state (P := fun _ _ => True) (parameterRow_takes artifactId) l.parameters ids
      refine Takes.before (n := l.parameters.length) (Q := fun _ => True) ?_ fun rows _ =>
        (Store.putParameters_takes rows.1).lift_state rows.2
      exact hrows.mono (by simp) fun _ _ => trivial
    change Takes ((writeReferences artifactId l [] >>= fun a =>
      writeParameters artifactId l a.2) >>= fun a => pure a.1) _ _
    exact ((hreferences []).bind fun a _ => hparameters a.2).before fun _ _ => Takes.pure trivial
  exact hlinks.before fun _ _ => Store.recordArtifact_takes _

theorem writeUnits_takes (now : Int) {parsed : List (StaleArtifact × CompilationUnit)} {linked : List LinkedUnit}
    (h : List.Forall₂ (fun u l => l.Shapes u) (parsed.map (·.2)) linked) :
    Takes (((parsed.map (·.1)).zip linked).forM fun (st, u) => writeUnit now st u)
      ((parsed.map (·.2)).map (·.rowDemand)).sum fun _ => True := by
  induction parsed generalizing linked with
  | nil => exact Takes.pure trivial
  | cons p parsed ih =>
    obtain ⟨l, linked, hl, hrest, rfl⟩ := List.forall₂_cons_left_iff.1 h
    simp only [List.map_cons, List.sum_cons]
    exact (writeUnit_takes now p.1 hl).bind fun _ _ => ih hrest

theorem purge_takes (path : String) : Takes (purge path) 0 fun _ => True := by
  refine Takes.after (Takes.query _ _ _) fun found _ => ?_
  cases found with
  | none => exact Takes.pure trivial
  | some id => exact Store.purgeArtifact_takes id

theorem touch_takes (path : String) (mtime : Int) : Takes (touch path mtime) 0 fun _ => True := by
  refine Takes.after (Takes.query _ _ _) fun found _ => ?_
  cases found with
  | none => exact Takes.pure trivial
  | some id => exact Store.touchArtifact_takes id mtime

theorem demand_eq (b : ReadBatch) :
    b.demand = (b.units.flatMap (·.owned)).length * 2 + (b.units.map (·.rowDemand)).sum := by
  unfold ReadBatch.demand
  induction b.units with
  | nil => rfl
  | cons u units ih =>
    rw [List.map_cons, List.sum_cons, ih, List.flatMap_cons, List.length_append, List.map_cons,
      List.sum_cons]
    unfold CompilationUnit.demand
    omega

/-- **A merge takes no more ids than its batch demands.** -/
theorem mergeBatch_takes (b : ReadBatch) (touched : List (String × Int)) (now : Int) :
    Takes (mergeBatch b touched now) b.demand fun _ => True := by
  rw [demand_eq]
  refine (Takes.composes.forM (fun _ => purge_takes _) b.attempted).after fun _ _ => ?_
  refine (Takes.composes.forM (fun _ => touch_takes _ _) touched).after fun _ _ => ?_
  refine (linkBatch_takes b.units).bind fun linked hlinked => ?_
  refine (writeUnits_takes now hlinked).before fun _ _ => ?_
  refine Store.detachUndeclared_takes.after fun _ _ => ?_
  refine Store.pruneOrphans_takes.after fun pruned _ => ?_
  refine Store.relinkPending_takes.after fun relinked _ => ?_
  split
  · exact (Store.markIndexed_takes now).after fun _ _ => Takes.pure trivial
  · exact Takes.pure trivial

end Update

end Crossref
