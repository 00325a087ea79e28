/-
The checksum of a unit is a label. No record looks at it while it is read, so lines
that are accepted under one checksum are accepted under every other, and the units
differ in nothing else.
-/
import Crossref.Proofs.Artifact.Accepted

namespace Crossref.Artifact

/-- The draft under another checksum. -/
def Draft.labelled (d : Draft) (checksum : String) : Draft :=
  { d with checksum }

theorem Draft.toUnit_labelled (d : Draft) (checksum : String) :
    (d.labelled checksum).toUnit = { d.toUnit with checksum } := rfl

namespace ReadM

/-- A step of reading that does the same under every checksum. -/
def Unlabelled {α : Type} (x : ReadM α) : Prop :=
  ∀ (d : Draft) (checksum : String), x (d.labelled checksum) = ((x d).1, (x d).2.labelled checksum)

variable {α β : Type}

theorem Unlabelled.pure (a : α) : Unlabelled (pure a : ReadM α) :=
  fun _ _ => rfl

theorem Unlabelled.refuse (reason : Reason) : Unlabelled (refuse reason : ReadM α) :=
  fun _ _ => rfl

theorem Unlabelled.bind {x : ReadM α} {f : α → ReadM β} (hx : Unlabelled x) (hf : ∀ a, Unlabelled (f a)) :
    Unlabelled (x >>= f) := by
  intro d checksum
  have hlabelled := hx d checksum
  rcases hrun : x d with ⟨e | a, d'⟩
  · rw [hrun] at hlabelled
    rw [bind_error hrun, bind_error hlabelled]
  · rw [hrun] at hlabelled
    rw [bind_ok hrun, bind_ok hlabelled]
    exact hf a d' checksum

/-- What is done after a look at the draft must not depend on the checksum that is seen. -/
theorem Unlabelled.get {f : Draft → ReadM β} (hsame : ∀ d checksum, f (d.labelled checksum) = f d)
    (hf : ∀ d, Unlabelled (f d)) : Unlabelled (get >>= f) := by
  intro d checksum
  rw [get_bind, get_bind, hsame]
  exact hf d d checksum

theorem Unlabelled.modify {g : Draft → Draft} (h : ∀ d checksum, g (d.labelled checksum) = (g d).labelled checksum) :
    Unlabelled (modify g : ReadM PUnit) := by
  intro d checksum
  rw [modify_apply, modify_apply, h]

theorem Unlabelled.forM {ρ : Type} {f : ρ → ReadM PUnit} (hf : ∀ r, Unlabelled (f r)) :
    ∀ rows : List ρ, Unlabelled (rows.forM f)
  | [] => Unlabelled.pure ()
  | r :: rows => Unlabelled.bind (hf r) fun _ => Unlabelled.forM hf rows

/-! ## Records -/

theorem number_unlabelled (text : List Char) : Unlabelled (number text) := by
  unfold number
  split <;> exact fun _ _ => rfl

theorem dependencyAt_unlabelled (text : List Char) : Unlabelled (dependencyAt text) := by
  refine Unlabelled.bind (number_unlabelled text) fun index => Unlabelled.get (fun _ _ => rfl) fun d => ?_
  split
  · exact Unlabelled.pure _
  · exact Unlabelled.refuse _

theorem checkChecksum_unlabelled (text : List Char) : Unlabelled (checkChecksum text) := by
  unfold checkChecksum
  split
  · exact Unlabelled.pure _
  · exact Unlabelled.refuse _

theorem versionRecord_unlabelled (body : List Char) : Unlabelled (versionRecord body) := by
  refine Unlabelled.get (fun _ _ => rfl) fun d => ?_
  split
  · dsimp only
    split <;> exact Unlabelled.refuse _
  · dsimp only
    split
    · exact Unlabelled.refuse _
    · exact Unlabelled.modify fun _ _ => rfl

theorem unitRecord_unlabelled (body : List Char) : Unlabelled (unitRecord body) := by
  unfold unitRecord
  split
  · exact Unlabelled.bind (checkChecksum_unlabelled _) fun _ => Unlabelled.modify fun _ _ => rfl
  · exact Unlabelled.refuse _

theorem addDependency_unlabelled (path stamp checksum unitName : List Char) :
    Unlabelled (addDependency path stamp checksum unitName) := by
  unfold addDependency
  split
  · exact Unlabelled.refuse _
  · exact Unlabelled.bind (checkChecksum_unlabelled _) fun _ => Unlabelled.modify fun _ _ => rfl

theorem dependencyRecord_unlabelled (body : List Char) : Unlabelled (dependencyRecord body) := by
  unfold dependencyRecord
  split
  · exact addDependency_unlabelled _ _ _ _
  · exact addDependency_unlabelled _ _ _ _
  · exact Unlabelled.refuse _

theorem sectionRecord_unlabelled (body : List Char) : Unlabelled (sectionRecord body) := by
  unfold sectionRecord
  split
  · refine Unlabelled.bind (dependencyAt_unlabelled _) fun r => ?_
    dsimp only
    split
    · exact Unlabelled.refuse _
    · exact Unlabelled.modify fun _ _ => rfl
  · exact Unlabelled.refuse _

theorem moveTo_unlabelled (index : List Char) : Unlabelled (moveTo index) :=
  Unlabelled.bind (dependencyAt_unlabelled index) fun _ => Unlabelled.modify fun _ _ => rfl

theorem recordMention_unlabelled (m : Mention) (token : List Char) : Unlabelled (recordMention m token) := by
  refine Unlabelled.bind (number_unlabelled _) fun line => ?_
  refine Unlabelled.bind (number_unlabelled _) fun column => ?_
  refine Unlabelled.get (fun _ _ => rfl) fun d => ?_
  split
  · exact Unlabelled.refuse _
  · dsimp only
    split
    · exact Unlabelled.modify fun _ _ => rfl
    · exact Unlabelled.modify fun _ _ => rfl
    · exact Unlabelled.refuse _

theorem mention_unlabelled (token : List Char) : Unlabelled (mention token) := by
  unfold mention
  split
  · exact Unlabelled.refuse _
  next m _ =>
    dsimp only
    split
    · exact Unlabelled.bind (moveTo_unlabelled _) fun _ => recordMention_unlabelled m token
    · exact recordMention_unlabelled m token

theorem entityLine_unlabelled (s : List Char) : Unlabelled (entityLine s) := by
  refine Unlabelled.get (fun _ _ => rfl) fun d => ?_
  split
  · exact Unlabelled.refuse _
  · split
    · exact Unlabelled.refuse _
    · refine Unlabelled.bind (number_unlabelled _) fun line => ?_
      refine Unlabelled.bind (number_unlabelled _) fun column => ?_
      exact Unlabelled.bind (Unlabelled.modify fun _ _ => rfl) fun _ => Unlabelled.forM mention_unlabelled _

theorem continuationLine_unlabelled (s : List Char) : Unlabelled (continuationLine s) := by
  refine Unlabelled.get (fun _ _ => rfl) fun d => ?_
  split
  · exact Unlabelled.refuse _
  · exact Unlabelled.forM mention_unlabelled _

theorem headerRecord_unlabelled (tag : Char) (body : List Char) : Unlabelled (headerRecord tag body) := by
  unfold headerRecord
  split
  · exact versionRecord_unlabelled body
  · exact unitRecord_unlabelled body
  · exact dependencyRecord_unlabelled body
  · exact sectionRecord_unlabelled body
  · exact Unlabelled.pure _

theorem record_unlabelled : ∀ line : List Char, Unlabelled (record line)
  | [] => Unlabelled.pure _
  | tag :: rest => by
    refine Unlabelled.get (fun _ _ => rfl) fun d => ?_
    dsimp only
    split
    · exact Unlabelled.refuse _
    · split
      · exact entityLine_unlabelled _
      · split
        · exact continuationLine_unlabelled _
        · split
          · exact Unlabelled.refuse _
          · split
            · exact headerRecord_unlabelled _ _
            · exact Unlabelled.refuse _

end ReadM

/-! ## Lines -/

namespace Draft

variable {d : Draft} {n : Nat} {line : List Char} {ls : List (List Char)} {u : CompilationUnit}

/-- A record with a fault ends the reading. -/
theorem readLines_fault {fault : Fault} {d' : Draft} (h : isSkipped line = false)
    (hrecord : ReadM.record (Text.trimEnd line) d = (.error fault, d')) :
    d.readLines n (line :: ls) = .error (.ofFault d' (n + 1) fault) := by
  have hrun : (ReadM.record (Text.trimEnd line)).run.run d = (.error fault, d') := hrecord
  rw [readLines, if_neg (by simp [h]), hrun]

/-- A line is accepted, under every checksum, or is a record with a fault. -/
theorem accepts_or_fault (d : Draft) (line : List Char) :
    (∃ d', d.Accepts [line] d' ∧ ∀ checksum, (d.labelled checksum).Accepts [line] (d'.labelled checksum)) ∨
      (isSkipped line = false ∧ ∃ fault d', ReadM.record (Text.trimEnd line) d = (.error fault, d')) := by
  by_cases hskipped : isSkipped line = true
  · exact .inl ⟨d, accepts_skipped hskipped, fun _ => accepts_skipped hskipped⟩
  · rw [Bool.not_eq_true] at hskipped
    rcases hrecord : ReadM.record (Text.trimEnd line) d with ⟨fault | _, d'⟩
    · exact .inr ⟨hskipped, fault, d', rfl⟩
    · refine .inl ⟨d', accepts_record hskipped hrecord, fun checksum => accepts_record hskipped ?_⟩
      rw [ReadM.record_unlabelled, hrecord]

theorem exists_accepts (h : d.readLines n (line :: ls) = .ok u) :
    ∃ d', d.Accepts [line] d' ∧ ∀ checksum, (d.labelled checksum).Accepts [line] (d'.labelled checksum) := by
  rcases d.accepts_or_fault line with haccepts | ⟨hskipped, fault, d', hrecord⟩
  · exact haccepts
  · rw [readLines_fault hskipped hrecord] at h
    cases h

/-- What is read of the lines behind one that is accepted. -/
theorem Accepts.readLines_tail {d' : Draft} (h : d.Accepts [line] d') (n : Nat) (ls : List (List Char)) :
    d.readLines n (line :: ls) = d'.readLines (n + 1) ls :=
  h n ls

theorem readLines_labelled (checksum : String) (h : d.readLines n ls = .ok u) :
    (d.labelled checksum).readLines n ls = .ok { u with checksum } := by
  induction ls generalizing d n with
  | nil =>
    rw [readLines] at h
    split at h
    · cases h
    next hversion =>
      have hlabelled : ¬(d.labelled checksum).version.isNone = true := hversion
      rw [readLines, if_neg hlabelled, toUnit_labelled, Except.ok.inj h]
  | cons line ls ih =>
    obtain ⟨d', haccepts, hlabelled⟩ := exists_accepts h
    rw [haccepts.readLines_tail] at h
    rw [(hlabelled checksum).readLines_tail]
    exact ih h

end Draft

/-- **A text that is accepted under one checksum is read as the same unit under every other.** -/
theorem readText_labelled {path checksum : String} {text : List Char} {u : CompilationUnit}
    (h : readText path checksum text = .ok u) (checksum' : String) :
    readText path checksum' text = .ok { u with checksum := checksum' } :=
  Draft.readLines_labelled checksum' h

end Crossref.Artifact
