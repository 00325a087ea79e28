/-
What happens to a store inside a transaction block. `Script` is a tree of writes,
copies of other stores and inner blocks, each with what it raises caught or passed on.
An inner block only joins the outer one, so that `Script.trace` goes through the tree
as if there were none. The outermost block keeps what the writes produce or takes it
back, as long as its transaction is under way. A write for which there is no room
takes back everything at once and ends the transaction; what is written after it stays,
and at its end the block raises.
-/
import Crossref.Proofs.Store.Blocks
import Crossref.Proofs.Store.Ids

namespace Crossref

open StoreM

/-! ## Scripts -/

/-- A write to a store. -/
inductive Write where
  | setSetting (key value : String)
  | markIndexed (now : Int)
  | putFile (new : FileRecord)
  | ensureFile (path : String)
  | stampFile (path stamp checksum : String)
  | recordArtifact (new : ArtifactRow)
  | touchArtifact (fileId mtime : Int)
  | replaceDependencies (artifactId : Int) (new : List DependencyRow)
  | purgeArtifact (artifactId : Int)
  | putEntity (name kind : String) (fileId line column : Int)
  | putDeclarations (new : List DeclarationRow)
  | addReferences (new : List ReferenceRecord)
  | putParameters (new : List ParameterRow)
  | detachUndeclared
  | pruneOrphans
  | relinkPending
  /-- Some statement for which the disk has no room. -/
  | starve
  deriving DecidableEq, Repr

def Write.run : Write → StoreM PUnit
  | .setSetting key value => Store.setSetting key value
  | .markIndexed now => Store.markIndexed now
  | .putFile new => do let _ ← Store.putFile new
  | .ensureFile path => do let _ ← Store.ensureFile path
  | .stampFile path stamp checksum => do let _ ← Store.stampFile path stamp checksum
  | .recordArtifact new => Store.recordArtifact new
  | .touchArtifact fileId mtime => Store.touchArtifact fileId mtime
  | .replaceDependencies artifactId new => Store.replaceDependencies artifactId new
  | .purgeArtifact artifactId => Store.purgeArtifact artifactId
  | .putEntity name kind fileId line column => do let _ ← Store.putEntity name kind fileId line column
  | .putDeclarations new => Store.putDeclarations new
  | .addReferences new => Store.addReferences new
  | .putParameters new => Store.putParameters new
  | .detachUndeclared => do let _ ← Store.detachUndeclared
  | .pruneOrphans => do let _ ← Store.pruneOrphans
  | .relinkPending => do let _ ← Store.relinkPending
  | .starve => StoreM.execute [] [] [] fun _ => .error .full

/-- What happens inside a block: writes, copies of what another connection sees, and inner blocks in turn, each with
what it raises caught or passed on, until the end or until something else is raised. -/
inductive Script where
  | done
  | raise (e : Failure)
  | write (w : Write) (caught : Bool) (rest : Script)
  | copy (source : Nat) (caught : Bool) (rest : Script)
  | block (body : Script) (caught : Bool) (rest : Script)

/-- The connections from which the script copies. -/
def Script.sources : Script → List Nat
  | .done | .raise _ => []
  | .write _ _ rest => rest.sources
  | .copy source _ rest => source :: rest.sources
  | .block body _ rest => body.sources ++ rest.sources

namespace StoreM

def attempt (caught : Bool) (x : StoreM PUnit) : StoreM PUnit :=
  if caught then tryCatch x fun _ => pure ⟨⟩ else x

/-- Replaces the contents by those of another store. -/
def replaceBy (source : Store) : StoreM PUnit := do
  let s ← get
  if s.readOnly then throw (.connection (.readOnlyTarget s.path))
  else if s.transaction.isRunning then throw (.connection (.copyFailed source.path s.path .targetInUse))
  else set { s with contents := source.contents }

end StoreM

/-- The script on a store, where the other connections see the given stores. -/
def Script.on (given : Nat → Store) : Script → StoreM PUnit
  | .done => pure ⟨⟩
  | .raise e => throw e
  | .write w caught rest => do
    StoreM.attempt caught w.run
    rest.on given
  | .copy source caught rest => do
    StoreM.attempt caught (replaceBy (given source))
    rest.on given
  | .block body caught rest => do
    StoreM.attempt caught (StoreM.transaction (body.on given))
    rest.on given

/-! ## What a script does to contents -/

/-- What a write answers where the contents are these, and what it leaves. -/
def Write.on (readOnly : Bool) (w : Write) (c : Contents) : Except Failure Unit × Contents :=
  let out := w.run { path := "", readOnly, contents := c }
  (out.1, out.2.contents)

/-- What the writes leave, one after the other. -/
def produce (readOnly : Bool) (c : Contents) (writes : List Write) : Contents :=
  writes.foldl (fun c w => (w.on readOnly c).2) c

/-- There is no room for the write. -/
def Write.exhausts (readOnly : Bool) (w : Write) (c : Contents) : Bool :=
  match (w.on readOnly c).1 with
  | .error (.row .full) => true
  | _ => false

/-- The write gets as far as a statement. -/
def Write.starts (readOnly : Bool) (w : Write) (c : Contents) : Bool :=
  (w.run { path := "", readOnly, contents := c, transaction := .begun }).2.transaction.isRunning

/-- How far the transaction of a block has got, with the contents that it started from: nothing was executed, or these
writes were, or it has ended for want of room and these writes were executed since. -/
inductive Stand where
  | begun (base : Contents)
  | running (base : Contents) (writes : List Write)
  | ended (base : Contents) (writes : List Write)

namespace Stand

def contents (readOnly : Bool) : Stand → Contents
  | .begun base => base
  | .running base writes | .ended base writes => produce readOnly base writes

def transaction : Stand → Transaction
  | .begun _ => .begun
  | .running base _ => .running base
  | .ended _ _ => .idle

/-- After a write. -/
def write (readOnly : Bool) (w : Write) (r : Stand) : Except Failure Unit × Stand :=
  let c := r.contents readOnly
  ((w.on readOnly c).1,
    match r with
    | .begun base =>
      if w.exhausts readOnly c then .ended base []
      else if w.starts readOnly c then .running base [w] else .begun base
    | .running base writes => if w.exhausts readOnly c then .ended base [] else .running base (writes ++ [w])
    | .ended base writes => .ended base (writes ++ [w]))

/-- After a copy of another store. -/
def copy (path : String) (readOnly : Bool) (source : Store) (r : Stand) : Except Failure Unit × Stand :=
  if readOnly then (.error (.connection (.readOnlyTarget path)), r)
  else match r with
    | .begun _ => (.ok ⟨⟩, .begun source.contents)
    | .running _ _ => (.error (.connection (.copyFailed source.path path .targetInUse)), r)
    | .ended _ _ => (.ok ⟨⟩, .ended source.contents [])

/-- The transaction is under way, started from these contents and has executed these writes. -/
inductive Since (c : Contents) : Stand → List Write → Prop where
  | begun : Since c (.begun c) []
  | running (writes : List Write) : Since c (.running c writes) writes

end Stand

/-- The rest comes next unless what was raised is passed on. -/
def passOn (caught : Bool) (first : Except Failure Unit × Stand) (rest : Stand → Except Failure Unit × Stand) :
    Except Failure Unit × Stand :=
  match first.1, caught with
  | .error _, false => first
  | _, _ => rest first.2

namespace Script

section
variable (given : Nat → Store) (path : String) (readOnly : Bool)

/-- What a script raises and how far it gets, as if there were no blocks in it. -/
def trace : Script → Stand → Except Failure Unit × Stand
  | .done, r => (.ok ⟨⟩, r)
  | .raise e, r => (.error e, r)
  | .write w caught rest, r => passOn caught (r.write readOnly w) rest.trace
  | .copy source caught rest, r => passOn caught (r.copy path readOnly (given source)) rest.trace
  | .block body caught rest, r => passOn caught (body.trace r) rest.trace

/-- What an outermost block raises, and the contents that it leaves. -/
def close (b : Script) (c : Contents) : Except Failure Unit × Contents :=
  match b.trace given path readOnly (.begun c) with
  | (.ok _, .ended base writes) => (.error (.row .cannotCommit), produce readOnly base writes)
  | (.ok _, r) => (.ok ⟨⟩, r.contents readOnly)
  | (.error _, .ended base writes) => (.error (.row .cannotRollback), produce readOnly base writes)
  | (.error e, .begun base) | (.error e, .running base _) => (.error e, base)

/-- What the outermost blocks raise, one after the other. -/
def outcomes : Contents → List Script → List (Except Failure Unit)
  | _, [] => []
  | c, b :: blocks => (b.close given path readOnly c).1 :: outcomes (b.close given path readOnly c).2 blocks

/-- The contents that they leave. -/
def kept (c : Contents) (blocks : List Script) : Contents :=
  blocks.foldl (fun c b => (b.close given path readOnly c).2) c

end

end Script

/-! ## Writes -/

theorem Write.acts (w : Write) : Acts (fun _ _ => True) w.run := by
  have hrefl : Std.Refl fun _ _ : Contents => True := ⟨fun _ => trivial⟩
  have discarding {α : Type} {R : Contents → Contents → Prop} {x : StoreM α} (h : Acts R x) :
      Acts (fun _ _ => True) (do let _ ← x) :=
    (h.before fun _ => Acts.pure _).mono fun _ _ _ => trivial
  have any {R : Contents → Contents → Prop} {x : StoreM PUnit} (h : Acts R x) : Acts (fun _ _ => True) x :=
    h.mono fun _ _ _ => trivial
  cases w with
  | setSetting key value => exact Acts.execute_ok fun _ => trivial
  | markIndexed now => exact any (Store.markIndexed_acts now)
  | putFile new => exact discarding (Store.putFile_acts new)
  | ensureFile path => exact discarding (Store.ensureFile_acts path)
  | stampFile path stamp checksum => exact discarding (Store.stampFile_acts path stamp checksum)
  | recordArtifact new => exact any (Store.recordArtifact_acts new)
  | touchArtifact fileId mtime => exact any (Store.touchArtifact_acts fileId mtime)
  | replaceDependencies artifactId new => exact any (Store.replaceDependencies_acts artifactId new)
  | purgeArtifact artifactId => exact any (Store.purgeArtifact_acts artifactId)
  | putEntity name kind fileId line column => exact discarding (Store.putEntity_acts name kind fileId line column)
  | putDeclarations new => exact any (Store.putDeclarations_acts new)
  | addReferences new => exact any (Store.addReferences_acts new)
  | putParameters new => exact any (Store.putParameters_acts new)
  | detachUndeclared => exact discarding Store.detachUndeclared_acts
  | pruneOrphans => exact discarding Store.pruneOrphans_acts
  | relinkPending => exact discarding Store.relinkPending_acts
  | starve => exact Acts.execute nofun

theorem produce_snoc (readOnly : Bool) (c : Contents) (writes : List Write) (w : Write) :
    produce readOnly c (writes ++ [w]) = (w.on readOnly (produce readOnly c writes)).2 :=
  List.foldl_append

/-- The store where its block has got this far. -/
def Store.standing (s : Store) (r : Stand) : Store :=
  { s with contents := r.contents s.readOnly, transaction := r.transaction }

section
variable {s : Store} {r : Stand} {given : Nat → Store}

/-- Without a transaction a write does to a store what it does to the contents. -/
theorem Write.run_idle (w : Write) (hs : s.transaction = .idle) :
    (w.run s).1 = (w.on s.readOnly s.contents).1 ∧ (w.run s).2.contents = (w.on s.readOnly s.contents).2 := by
  have halike : s.Alike { path := "", readOnly := s.readOnly, contents := s.contents } := ⟨rfl, rfl, hs⟩
  exact (w.acts.sees halike).imp_right (·.contents)

theorem Write.run_begun (w : Write) (hs : s.transaction = .begun) :
    (w.run s).2.transaction.isRunning = w.starts s.readOnly s.contents := by
  have halike : s.Alike { path := "", readOnly := s.readOnly, contents := s.contents, transaction := .begun } :=
    ⟨rfl, rfl, hs⟩
  exact congrArg Transaction.isRunning (w.acts.sees halike).2.transaction

theorem Write.exhausts_iff {readOnly : Bool} {w : Write} {c : Contents} :
    w.exhausts readOnly c = true ↔ (w.on readOnly c).1 = .error (.row .full) := by
  unfold Write.exhausts
  split
  next h => simp [h]
  next h => simpa using h

/-- A write inside a transaction. -/
theorem Write.run_inside (w : Write) {base : Contents}
    (h : r.transaction.saved? (r.contents s.readOnly) = some base) :
    (w.exhausts s.readOnly (r.contents s.readOnly) = true ∧
        w.run (s.standing r) = (.error (.row .full), s.standing (.ended base []))) ∨
      w.exhausts s.readOnly (r.contents s.readOnly) = false ∧
        ∃ t : Transaction, t.saved? (w.on s.readOnly (r.contents s.readOnly)).2 = some base ∧
          (r.transaction.isRunning = true → t.isRunning = true) ∧
          w.run (s.standing r) = ((w.on s.readOnly (r.contents s.readOnly)).1,
            { s with contents := (w.on s.readOnly (r.contents s.readOnly)).2, transaction := t }) := by
  have hinside := w.acts.inside (s := s.standing r) h
  obtain ⟨hanswer, hcontents⟩ := w.run_idle (s := (s.standing r).bare) rfl
  generalize w.run (s.standing r).bare = bare at hinside hanswer hcontents
  generalize w.run (s.standing r) = out at hinside ⊢
  cases hinside with
  | lost c => exact .inl ⟨Write.exhausts_iff.2 hanswer.symm, rfl⟩
  | @kept out c t room ht runs =>
    obtain rfl : out = _ := hanswer
    obtain rfl : c = _ := hcontents
    refine .inr ⟨?_, t, ht, runs, rfl⟩
    rw [← Bool.not_eq_true, Write.exhausts_iff]
    exact room

theorem Write.run_standing (w : Write) (s : Store) (r : Stand) :
    w.run (s.standing r) = ((r.write s.readOnly w).1, s.standing (r.write s.readOnly w).2) := by
  cases r with
  | begun base =>
    have hstarts : (w.run (s.standing (.begun base))).2.transaction.isRunning = w.starts s.readOnly base :=
      w.run_begun rfl
    obtain ⟨hfull, hrun⟩ | ⟨hroom, t, ht, -, hrun⟩ := w.run_inside (s := s) (r := .begun base) rfl
    · rw [hrun, Stand.write, if_pos hfull, ← Write.exhausts_iff.1 hfull]
      rfl
    · rw [hrun] at hstarts ⊢
      have hnext : (Stand.begun base).write s.readOnly w =
          ((w.on s.readOnly base).1, if w.starts s.readOnly base then .running base [w] else .begun base) :=
        congrArg (Prod.mk _) (if_neg (ne_true_of_eq_false hroom))
      rw [hnext, ← hstarts]
      cases t with
      | idle => cases ht
      | begun =>
        have hsame : (w.on s.readOnly base).2 = base := Option.some.inj ht
        exact congrArg (Prod.mk _) (by rw [Stand.contents, hsame]; rfl)
      | running saved =>
        obtain rfl := Option.some.inj ht
        rfl
  | running base writes =>
    obtain ⟨hfull, hrun⟩ | ⟨hroom, t, ht, hruns, hrun⟩ := w.run_inside (s := s) (r := .running base writes) rfl
    · rw [hrun, Stand.write, if_pos hfull, ← Write.exhausts_iff.1 hfull]
    · rw [hrun, Stand.write, if_neg (ne_true_of_eq_false hroom)]
      have hruns := hruns rfl
      cases t with
      | idle => cases ht
      | begun => cases hruns
      | running saved =>
        obtain rfl := Option.some.inj ht
        exact congrArg (Prod.mk _) (congrArg
          (fun c : Contents => { s with contents := c, transaction := .running saved })
          (produce_snoc s.readOnly saved writes w).symm)
  | ended base writes =>
    obtain ⟨hanswer, hcontents⟩ := w.run_idle (s := s.standing (.ended base writes)) rfl
    have honly := w.acts.only (s := s.standing (.ended base writes)) rfl
    refine Prod.ext hanswer (honly.trans ?_)
    rw [hcontents]
    exact congrArg (fun c : Contents => { s with contents := c, transaction := .idle })
      (produce_snoc s.readOnly base writes w).symm

theorem StoreM.replaceBy_apply (source s : Store) :
    replaceBy source s =
      if s.readOnly then (.error (.connection (.readOnlyTarget s.path)), s)
      else if s.transaction.isRunning then (.error (.connection (.copyFailed source.path s.path .targetInUse)), s)
      else (.ok ⟨⟩, { s with contents := source.contents }) := by
  unfold replaceBy
  rw [get_apply]
  split
  · rfl
  · split <;> rfl

theorem StoreM.replaceBy_standing (source s : Store) (r : Stand) :
    replaceBy source (s.standing r) =
      ((r.copy s.path s.readOnly source).1, s.standing (r.copy s.path s.readOnly source).2) := by
  obtain ⟨path, readOnly, contents, depth, transaction⟩ := s
  cases readOnly <;> cases r <;> rfl

/-! ## Blocks -/

/-- What comes next, after something that may have raised. -/
theorem StoreM.attempt_standing {x y : StoreM PUnit} {first : Except Failure Unit × Stand}
    {rest : Stand → Except Failure Unit × Stand} (hx : x (s.standing r) = (first.1, s.standing first.2))
    (hy : ∀ r, y (s.standing r) = ((rest r).1, s.standing (rest r).2)) (caught : Bool) :
    (do StoreM.attempt caught x; y) (s.standing r) =
      ((passOn caught first rest).1, s.standing (passOn caught first rest).2) := by
  obtain ⟨outcome, r'⟩ := first
  rw [bind_apply]
  cases outcome with
  | ok a =>
    cases caught <;> simp only [attempt, Bool.false_eq_true, if_false, if_true, tryCatch_apply, hx, passOn, hy]
  | error e =>
    cases caught with
    | false => simp only [attempt, Bool.false_eq_true, if_false, hx, passOn]
    | true =>
      simp only [attempt, if_true, tryCatch_apply, hx, passOn]
      exact hy r'

/-- Inside a block, inner blocks make no difference. -/
theorem Script.on_standing (given : Nat → Store) (b : Script) (hs : 0 < s.depth) (r : Stand) :
    b.on given (s.standing r) =
      ((b.trace given s.path s.readOnly r).1, s.standing (b.trace given s.path s.readOnly r).2) := by
  induction b generalizing s r with
  | done => rfl
  | raise e => rfl
  | write w caught rest ih => exact attempt_standing (w.run_standing s r) (fun r => ih hs r) caught
  | copy source caught rest ih =>
    exact attempt_standing (replaceBy_standing (given source) s r) (fun r => ih hs r) caught
  | block body caught rest ihbody ih =>
    refine attempt_standing ?_ (fun r => ih hs r) caught
    let deeper : Store := { s with depth := s.depth + 1 }
    have henter : (s.standing r).enter = deeper.standing r := by
      simp only [Store.enter, Store.standing, Nat.ne_of_gt hs, if_false, deeper]
    have hdepth : 1 < deeper.depth := Nat.succ_lt_succ hs
    rw [block_apply, henter, ihbody (Nat.lt_of_succ_lt hdepth)]
    rcases body.trace given s.path s.readOnly r with ⟨e | a, r'⟩
    · dsimp only
      rw [bind_apply, abandon_inner (s := deeper.standing r') hdepth]
      rfl
    · dsimp only
      rw [bind_apply, leave_inner (s := deeper.standing r') hdepth]
      rfl

/-- **An outermost block on a store.** -/
theorem Script.transaction_on (given : Nat → Store) (b : Script) (hd : s.depth = 0) (ht : s.transaction = .idle) :
    StoreM.transaction (b.on given) s =
      ((b.close given s.path s.readOnly s.contents).1,
        { s with contents := (b.close given s.path s.readOnly s.contents).2 }) := by
  have henter : s.enter = { s with depth := 1 : Store }.standing (.begun s.contents) := by
    simp only [Store.enter, hd, if_true]
    rfl
  have hidle (c : Contents) :
      { s with depth := 0, contents := c, transaction := .idle : Store } = { s with contents := c } := by
    rw [← hd, ← ht]
  rw [block_apply, henter, on_standing given b Nat.one_pos, Script.close]
  rcases b.trace given s.path s.readOnly (.begun s.contents) with ⟨e | a, r'⟩
  · dsimp only
    rw [bind_apply, abandon_outermost rfl]
    cases r' with
    | begun base => exact congrArg (Prod.mk _) (hidle base)
    | running base writes => exact congrArg (Prod.mk _) (hidle base)
    | ended base writes => exact congrArg (Prod.mk _) (hidle (produce s.readOnly base writes))
  · dsimp only
    rw [bind_apply, leave_outermost rfl]
    cases r' with
    | begun base => exact congrArg (Prod.mk _) (hidle base)
    | running base writes => exact congrArg (Prod.mk _) (hidle (produce s.readOnly base writes))
    | ended base writes => exact congrArg (Prod.mk _) (hidle (produce s.readOnly base writes))

/-- As long as its transaction is under way and began with the contents that were there, a block keeps what its
writes produce, or all is as it was when it was entered. -/
theorem Script.close_since {path : String} {readOnly : Bool} {b : Script} {c : Contents} {writes : List Write}
    (h : (b.trace given path readOnly (.begun c)).2.Since c writes) :
    b.close given path readOnly c =
      match (b.trace given path readOnly (.begun c)).1 with
      | .ok _ => (.ok ⟨⟩, produce readOnly c writes)
      | .error e => (.error e, c) := by
  unfold close
  generalize b.trace given path readOnly (.begun c) = out at h ⊢
  obtain ⟨outcome, r⟩ := out
  cases h <;> cases outcome <;> rfl

end

end Crossref
