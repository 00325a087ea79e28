/-
Maintenance of any store. Whatever writes made of an index, its keys hold. From such
contents, taking out what lost its declaration never fails and is all that goes, the
links keep the keys that they denote, and a second pass finds nothing left to do.
-/
import Crossref.Proofs.Store.Denoting
import Crossref.Proofs.Store.Scripts

namespace Crossref

open StoreM Contents

/-! ## Whatever was written -/

theorem Write.acts_keyed (w : Write) : Acts KeepsKeys w.run := by
  have discarding {α : Type} {x : StoreM α} (h : Acts KeepsKeys x) : Acts KeepsKeys (do let _ ← x) :=
    h.before fun _ => Acts.pure _
  cases w with
  | setSetting key value => exact Acts.execute_ok fun c h => ⟨{ h.closed with }, h.entityRange⟩
  | markIndexed now => exact Acts.execute_ok fun c h => ⟨{ h.closed with }, h.entityRange⟩
  | putFile new => exact discarding (Store.putFile_keyed new)
  | ensureFile path => exact discarding (Store.ensureFile_keyed path)
  | stampFile path stamp checksum => exact discarding (Store.stampFile_keyed path stamp checksum)
  | recordArtifact new => exact Acts.execute fun _ _ => counted_recordArtifact
  | touchArtifact fileId mtime => exact Acts.execute_ok fun _ => counted_touchArtifact fileId mtime
  | replaceDependencies artifactId new => exact Store.replaceDependencies_keyed artifactId new
  | purgeArtifact artifactId => exact Store.purgeArtifact_keyed artifactId
  | putEntity name kind fileId line column => exact discarding (Store.putEntity_keyed name kind fileId line column)
  | putDeclarations new => exact Acts.executeAll fun _ _ _ => counted_putDeclaration
  | addReferences new => exact Acts.executeAll fun _ _ _ => counted_addReference
  | putParameters new => exact Acts.executeAll fun _ _ _ => counted_putParameter
  | detachUndeclared => exact discarding Store.detachUndeclared_keyed
  | pruneOrphans => exact discarding Store.pruneOrphans_keyed
  | relinkPending => exact discarding Store.relinkPending_keyed
  | starve => exact Acts.execute nofun

/-- Whatever is written to contents whose keys hold, some of it in vain, the keys hold afterwards. -/
theorem counted_produce {c : Contents} (h : c.Counted) (readOnly : Bool) (writes : List Write) :
    (produce readOnly c writes).Counted := by
  induction writes generalizing c with
  | nil => exact h
  | cons w writes ih => exact ih (w.acts_keyed.changes (s := { path := "", readOnly, contents := c }) rfl h)

namespace Store

/-- **Maintenance of any store whose keys hold.** It never fails. What goes are the entities that no declaration is
of and the parameters that they own; of the other rows only links change. After the pruning every link that is left
denotes the key that it denoted, and after the relinking it does so too, except that a missing name may have been
found. The keys of the store hold in the end, and the same maintenance once more changes nothing. -/
theorem maintenance_keeps_keys (s : Store) {c : Contents} (hc : c.Complete) (hk : c.Closed) :
    ∃ detached relinked c₁ c₂ c₃,
      detachUndeclared (s.holding c) = (.ok detached, s.holding c₁) ∧
      pruneOrphans (s.holding c₁) = (.ok c.orphans.length, s.holding c₂) ∧
      relinkPending (s.holding c₂) = (.ok relinked, s.holding c₃) ∧
      c.swept.Relinks (SameKey c c₂) c₂ ∧ c.swept.Relinks (SameKeyOrNamed c c₃) c₃ ∧ c₃.Closed ∧
      detachUndeclared (s.holding c₃) = (.ok 0, s.holding c₃) ∧
      pruneOrphans (s.holding c₃) = (.ok 0, s.holding c₃) ∧
      relinkPending (s.holding c₃) = (.ok 0, s.holding c₃) := by
  set c₂ := c.swept.mapLinks (·.detach c)
  set c₃ := c₂.mapLinks (·.relink c₂) with hc₃
  have hcomplete₂ : c₂.Complete := ⟨hc.has⟩
  have hdeclared : ∀ e ∈ c₂.entities, c₂.isDeclared e = true := fun e he => (List.mem_filter.1 he).2
  have hsettled : c₃.Settled := settled_mapLinks_relink hdeclared
  have hboth : c₃ = c.swept.mapLinks fun l => (l.detach c).relink c₂ := mapLinks_mapLinks ..
  obtain ⟨detached, c₁, hdetach, hprune⟩ := prune_apply (s := s) hc hk
  obtain ⟨relinked, hrelink⟩ := relink_apply (s := s) hcomplete₂
  refine ⟨detached, relinked, c₁, c₂, c₃, hdetach, hprune, hrelink, ?_, ?_, hk.swept_detached.mapLinks_relink,
    maintenance_settled ⟨hc.has⟩ hsettled⟩
  · exact hk.swept_relinks fun _ hl => hk.sameKey_detach rfl hl
  · rw [hboth]
    exact hk.swept_relinks fun _ hl => hk.sameKeyOrNamed rfl rfl hl

/-! Two entities of three lost their declaration; one is called, the other one is its parameter. A reference awaits
whatever stands where the third one is. -/

namespace LeftOver

def writes : List Write :=
  [.ensureFile "p.ads", .ensureFile "p.ali", .putEntity "P" "package" 1 1 9, .putEntity "Q" "procedure" 1 2 14,
    .putEntity "X" "in parameter" 1 2 17, .putDeclarations [⟨1, 2, true⟩],
    .addReferences [⟨⟨some 2, {}⟩, 2, 1, 5, 4, "call", ⟨some 1, {}⟩⟩,
      ⟨⟨none, ⟨some "", some 1, some 1, some 9⟩⟩, 2, 1, 6, 5, "reference", {}⟩],
    .putParameters [⟨2, 1, ⟨some 3, {}⟩, "in", 2⟩]]

def contents : Contents :=
  produce false .empty writes

def store : Store :=
  { path := ":memory:", readOnly := false, contents }

theorem complete : contents.Complete where
  has t := by cases t <;> decide +kernel

theorem closed : contents.Closed :=
  (counted_produce empty_counted false writes).closed

theorem maintenance_leftOver :
    contents.Complete ∧ contents.Closed ∧ contents.orphans.map (·.name) = ["Q", "X"] ∧
      ∃ detached relinked c₁ c₂ c₃,
        detachUndeclared (store.holding contents) = (.ok detached, store.holding c₁) ∧
        pruneOrphans (store.holding c₁) = (.ok contents.orphans.length, store.holding c₂) ∧
        relinkPending (store.holding c₂) = (.ok relinked, store.holding c₃) ∧
        contents.swept.Relinks (SameKey contents c₂) c₂ ∧
        contents.swept.Relinks (SameKeyOrNamed contents c₃) c₃ ∧ c₃.Closed ∧
        detachUndeclared (store.holding c₃) = (.ok 0, store.holding c₃) ∧
        pruneOrphans (store.holding c₃) = (.ok 0, store.holding c₃) ∧
        relinkPending (store.holding c₃) = (.ok 0, store.holding c₃) :=
  ⟨complete, closed, by decide +kernel, maintenance_keeps_keys store complete closed⟩

end LeftOver

end Store

end Crossref
