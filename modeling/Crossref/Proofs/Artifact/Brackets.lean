/-
Scopes as brackets. In a file an entity opens a bracket at each of its bodies and at
its declaration, and it closes one at each end of a specification or of a body. Its
ranges are the pairs that a scan with a stack matches: an opener is pushed, a closer
pops, and at one position closers come first. So every bracket is used at most once,
no two ranges of an entity cross, and a closer stays alone only if every opener
before it was used before.
-/
import Mathlib.Data.List.Perm.Subperm
import Crossref.Artifact.Scope
import Crossref.Proofs.Firsts

namespace Crossref

/-! ## The order of positions -/

namespace Position

variable {p q r : Position}

theorem not_before : p.before q = false ↔ q.line < p.line ∨ q.line = p.line ∧ q.column ≤ p.column := by
  rw [← Bool.not_eq_true, before_iff]
  omega

theorem before_trans (h₁ : p.before q = true) (h₂ : q.before r = true) : p.before r = true := by
  rw [before_iff] at *
  omega

theorem before_of_le (h₁ : q.before p = false) (h₂ : q.before r = true) : p.before r = true := by
  rw [not_before] at h₁
  rw [before_iff] at *
  omega

theorem eq_of_not_before (h₁ : p.before q = false) (h₂ : q.before p = false) : p = q := by
  rw [not_before] at h₁ h₂
  obtain ⟨line, column⟩ := p
  obtain ⟨line', column'⟩ := q
  simp only [Position.mk.injEq] at h₁ h₂ ⊢
  omega

end Position

namespace Artifact

/-! ## Brackets -/

/-- A position where a range opens or closes. -/
inductive Bracket where
  | opener (position : Position)
  | closer (position : Position)
  deriving DecidableEq, Repr

namespace Bracket

def position : Bracket → Position
  | .opener p | .closer p => p

def opener? : Bracket → Option Position
  | .opener p => some p
  | .closer _ => none

def closer? : Bracket → Option Position
  | .opener _ => none
  | .closer p => some p

/-- By position; closers come before openers at one position. -/
def le (a b : Bracket) : Bool :=
  a.position.before b.position || (a.position = b.position && (a.closer?.isSome || b.opener?.isSome))

end Bracket

/-- What a use opens or closes for an entity in a file. -/
def Use.bracket? (owner : EntityKey) (file : String) (u : Use) : Option Bracket :=
  if u.target = owner ∧ u.location.file = file then
    match u.kind with
    | .body => some (.opener u.location.position)
    | .endOfSpec | .endOfBody => some (.closer u.location.position)
    | _ => none
  else none

/-- The brackets of an entity in a file, in order. -/
def brackets (declared : List EntityKey) (uses : List Use) (owner : EntityKey) (file : String) :
    List Bracket :=
  (uses.filterMap (Use.bracket? owner file) ++
    if owner ∈ declared ∧ owner.file = file then [Bracket.opener ⟨owner.line, owner.column⟩] else []).mergeSort
      Bracket.le

/-- Matches each closer with the opener that was pushed last, above a stack of open ones. -/
def matched : List Position → List Bracket → List (Position × Position)
  | _, [] => []
  | stack, .opener p :: rest => matched (p :: stack) rest
  | [], .closer _ :: rest => matched [] rest
  | o :: stack, .closer c :: rest => (o, c) :: matched stack rest

/-- The second of the ranges opens inside the first and closes outside. -/
def Crosses (r s : Position × Position) : Prop :=
  r.1.before s.1 = true ∧ s.1.before r.2 = true ∧ r.2.before s.2 = true

variable {declared : List EntityKey} {uses : List Use} {owner : EntityKey} {file : String}

namespace Bracket

theorem le_trans (a b c : Bracket) (h₁ : a.le b = true) (h₂ : b.le c = true) : a.le c = true := by
  simp only [le, Bool.or_eq_true, Bool.and_eq_true, decide_eq_true_eq] at *
  rcases h₁ with h₁ | ⟨heq₁, h₁⟩ <;> rcases h₂ with h₂ | ⟨heq₂, h₂⟩
  · exact .inl (Position.before_trans h₁ h₂)
  · exact .inl (heq₂ ▸ h₁)
  · exact .inl (heq₁ ▸ h₂)
  · refine .inr ⟨heq₁.trans heq₂, ?_⟩
    cases b <;> simp_all [closer?, opener?]

theorem le_total (a b : Bracket) : (a.le b || b.le a) = true := by
  simp only [le, Bool.or_eq_true, Bool.and_eq_true, decide_eq_true_eq]
  by_cases h₁ : a.position.before b.position = true
  · exact .inl (.inl h₁)
  · by_cases h₂ : b.position.before a.position = true
    · exact .inr (.inl h₂)
    · have heq := Position.eq_of_not_before (Bool.not_eq_true _ ▸ h₁) (Bool.not_eq_true _ ▸ h₂)
      cases a <;> cases b <;> simp_all [closer?, opener?]

/-- What comes later is not before what came first. -/
theorem not_before_of_le {a b : Bracket} (h : a.le b = true) : b.position.before a.position = false := by
  simp only [le, Bool.or_eq_true, Bool.and_eq_true, decide_eq_true_eq] at h
  rw [Position.not_before]
  rcases h with h | ⟨h, -⟩
  · rw [Position.before_iff] at h
    omega
  · rw [h]
    omega

/-- An opener that comes before a closer stands before it. -/
theorem before_of_le {p c : Position} (h : (opener p).le (.closer c) = true) : p.before c = true := by
  simpa [le, closer?, opener?, position] using h

end Bracket

theorem brackets_sorted (declared : List EntityKey) (uses : List Use) (owner : EntityKey) (file : String) :
    (brackets declared uses owner file).Pairwise fun a b => a.le b = true :=
  List.pairwise_mergeSort Bracket.le_trans Bracket.le_total _

/-! ## The same brackets, openers and closers apart -/

section
variable {l l' : List Position}

/-- Sorted positions are known by what they are. -/
theorem eq_of_perm (h : l.Perm l') (hl : l.Pairwise fun p q => q.before p = false)
    (hl' : l'.Pairwise fun p q => q.before p = false) : l = l' :=
  h.eq_of_pairwise (fun _ _ _ _ h₁ h₂ => Position.eq_of_not_before h₂ h₁) hl hl'

theorem sortPositions_sorted (l : List Position) :
    (sortPositions l).Pairwise fun p q => q.before p = false := by
  have htrans (p q r : Position) (h₁ : (!q.before p) = true) (h₂ : (!r.before q) = true) :
      (!r.before p) = true := by
    rw [Bool.not_eq_true', Position.not_before] at *
    omega
  have htotal (p q : Position) : (!q.before p || !p.before q) = true := by
    rw [Bool.or_eq_true, Bool.not_eq_true', Bool.not_eq_true', Position.not_before, Position.not_before]
    omega
  exact (List.pairwise_mergeSort htrans htotal l).imp fun h => Bool.not_eq_true' _ ▸ h

/-- What is picked from sorted brackets is sorted. -/
theorem sorted_of_brackets {bs : List Bracket} (h : bs.Pairwise fun a b => a.le b = true)
    {pick : Bracket → Option Position} (hpick : ∀ b p, pick b = some p → b.position = p) :
    (bs.filterMap pick).Pairwise fun p q => q.before p = false := by
  refine h.filterMap pick fun a b hle p hp q hq => ?_
  rw [← hpick a p hp, ← hpick b q hq]
  exact Bracket.not_before_of_le hle

end

theorem Bracket.position_of_opener? (b : Bracket) (p : Position) (h : b.opener? = some p) : b.position = p := by
  cases b with
  | opener q => exact Option.some.inj h
  | closer q => cases h

theorem Bracket.position_of_closer? (b : Bracket) (p : Position) (h : b.closer? = some p) : b.position = p := by
  cases b with
  | opener q => cases h
  | closer q => exact Option.some.inj h

/-- Picking from the uses one by one is the same as picking from all their brackets. -/
theorem filterMap_brackets (pick : Bracket → Option Position) (chosen : ReferenceKind → Bool)
    (h : ∀ u : Use, (u.bracket? owner file).bind pick =
      if u.isOf owner file && chosen u.kind then some u.location.position else none) :
    (uses.filterMap (Use.bracket? owner file)).filterMap pick =
      (uses.filter fun u => u.isOf owner file && chosen u.kind).map (·.location.position) := by
  rw [List.filterMap_filterMap, ← List.filterMap_eq_map, List.filterMap_filter]
  exact List.filterMap_congr fun u _ => h u

theorem openers_eq (declared : List EntityKey) (uses : List Use) (owner : EntityKey) (file : String) :
    (brackets declared uses owner file).filterMap Bracket.opener? = openers declared uses owner file := by
  refine eq_of_perm ?_ (sorted_of_brackets (brackets_sorted _ _ _ _) Bracket.position_of_opener?)
    (sortPositions_sorted _)
  refine ((List.mergeSort_perm _ _).filterMap _).trans (List.Perm.trans (.of_eq ?_) (List.mergeSort_perm _ _).symm)
  rw [List.filterMap_append, filterMap_brackets Bracket.opener? ReferenceKind.opensScope]
  · congr 1
    simp only [List.contains_eq_mem, Bool.and_eq_true, decide_eq_true_eq]
    split <;> rfl
  · intro u
    simp only [Use.bracket?, Use.isOf, Bool.and_eq_true, decide_eq_true_eq]
    by_cases hu : u.target = owner ∧ u.location.file = file
    · simp only [hu, and_self, if_true, true_and]
      cases u.kind <;> rfl
    · simp [hu]

theorem closers_eq (declared : List EntityKey) (uses : List Use) (owner : EntityKey) (file : String) :
    (brackets declared uses owner file).filterMap Bracket.closer? = closers uses owner file := by
  refine eq_of_perm ?_ (sorted_of_brackets (brackets_sorted _ _ _ _) Bracket.position_of_closer?)
    (sortPositions_sorted _)
  refine ((List.mergeSort_perm _ _).filterMap _).trans (List.Perm.trans (.of_eq ?_) (List.mergeSort_perm _ _).symm)
  rw [List.filterMap_append, filterMap_brackets Bracket.closer? ReferenceKind.closesScope]
  · split <;> simp [Bracket.closer?]
  · intro u
    simp only [Use.bracket?, Use.isOf, Bool.and_eq_true, decide_eq_true_eq]
    by_cases hu : u.target = owner ∧ u.location.file = file
    · simp only [hu, and_self, if_true, true_and]
      cases u.kind <;> rfl
    · simp [hu]

/-! ## Pairing up is matching -/

/-- In sorted positions it does not matter which of several equal ones is erased. -/
theorem erase_sorted {before after : List Position} {p : Position}
    (h : (before ++ p :: after).Pairwise fun p q => q.before p = false) :
    (before ++ p :: after).erase p = before ++ after := by
  have hmem : p ∈ before ++ p :: after := by simp
  have hperm : ((before ++ p :: after).erase p).Perm (before ++ after) :=
    ((List.perm_cons_erase hmem).symm.trans List.perm_middle).cons_inv
  refine eq_of_perm hperm (h.sublist List.erase_sublist) (h.sublist ?_)
  exact (List.sublist_cons_self p after).append_left before

/-- A stack and brackets above it: the brackets are sorted, and whatever is on the stack stands before
every closer. The last element of the stack is the first that was pushed. -/
structure Open (stack : List Position) (bs : List Bracket) : Prop where
  sorted : bs.Pairwise fun a b => a.le b = true
  openers : (stack.reverse ++ bs.filterMap Bracket.opener?).Pairwise fun p q => q.before p = false
  closers : ∀ p ∈ stack, ∀ c ∈ bs.filterMap Bracket.closer?, p.before c = true

theorem open_brackets (declared : List EntityKey) (uses : List Use) (owner : EntityKey) (file : String) :
    Open [] (brackets declared uses owner file) where
  sorted := brackets_sorted declared uses owner file
  openers := sorted_of_brackets (brackets_sorted _ _ _ _) Bracket.position_of_opener?
  closers := by simp

namespace Open

variable {stack : List Position} {bs : List Bracket} {o p c : Position}

theorem push (h : Open stack (.opener p :: bs)) : Open (p :: stack) bs where
  sorted := h.sorted.of_cons
  openers := by
    rw [List.reverse_cons, List.append_assoc]
    exact h.openers
  closers q hq c hc := by
    rcases List.mem_cons.1 hq with rfl | hq
    · obtain ⟨b, hb, hclose⟩ := List.mem_filterMap.1 hc
      have hle := List.rel_of_pairwise_cons h.sorted hb
      cases b with
      | opener r => cases hclose
      | closer r => exact Option.some.inj hclose ▸ Bracket.before_of_le hle
    · exact h.closers q hq c hc

theorem skip (h : Open stack (.closer c :: bs)) : Open stack bs where
  sorted := h.sorted.of_cons
  openers := h.openers
  closers p hp c' hc' := h.closers p hp c' (List.mem_cons_of_mem c hc')

theorem pop (h : Open (o :: stack) bs) : Open stack bs where
  sorted := h.sorted
  openers := by
    refine h.openers.sublist ?_
    rw [List.reverse_cons]
    exact (List.sublist_append_left _ _).append_right _
  closers p hp := h.closers p (List.mem_cons_of_mem o hp)

/-- No later opener stands before a closer. -/
theorem not_before (h : Open stack (.closer c :: bs)) : ∀ p ∈ bs.filterMap Bracket.opener?, p.before c = false := by
  intro p hp
  obtain ⟨b, hb, hopen⟩ := List.mem_filterMap.1 hp
  have hle := Bracket.not_before_of_le (List.rel_of_pairwise_cons h.sorted hb)
  rwa [b.position_of_opener? p hopen] at hle

/-- Before a closer there are just the openers on the stack. -/
theorem filter_before (h : Open stack (.closer c :: bs)) :
    (stack.reverse ++ bs.filterMap Bracket.opener?).filter (·.before c) = stack.reverse := by
  have hstack : stack.reverse.filter (·.before c) = stack.reverse :=
    List.filter_eq_self.2 fun p hp => h.closers p (List.mem_reverse.1 hp) c (by simp [Bracket.closer?])
  have hlater : (bs.filterMap Bracket.opener?).filter (·.before c) = [] :=
    List.filter_eq_nil_iff.2 fun p hp => by simp [h.not_before p hp]
  rw [List.filter_append, hstack, hlater, List.append_nil]

end Open

/-- **Giving each closer the closest unused opener before it is matching with a stack.** -/
theorem pairUp_eq_matched : ∀ {bs : List Bracket} {stack : List Position}, Open stack bs →
    pairUp (stack.reverse ++ bs.filterMap Bracket.opener?) (bs.filterMap Bracket.closer?) = matched stack bs
  | [], _, _ => rfl
  | .opener p :: bs, stack, h => by
    have ih := pairUp_eq_matched h.push
    rw [List.reverse_cons, List.append_assoc] at ih
    exact ih
  | .closer c :: bs, [], h => by
    have hnone := h.filter_before
    have ih := pairUp_eq_matched h.skip
    simp only [List.reverse_nil, List.nil_append] at hnone ih
    change pairUp (bs.filterMap Bracket.opener?) (c :: bs.filterMap Bracket.closer?) = matched [] bs
    rw [pairUp, hnone]
    exact ih
  | .closer c :: bs, o :: stack, h => by
    have hlast := h.filter_before
    have hsorted := h.openers
    have ih := pairUp_eq_matched h.skip.pop
    change pairUp ((o :: stack).reverse ++ bs.filterMap Bracket.opener?) (c :: bs.filterMap Bracket.closer?) =
      (o, c) :: matched stack bs
    have hopeners : (o :: stack).reverse ++ bs.filterMap Bracket.opener? =
        stack.reverse ++ o :: bs.filterMap Bracket.opener? := by simp
    change ((o :: stack).reverse ++ bs.filterMap Bracket.opener?).Pairwise _ at hsorted
    rw [pairUp, hlast, List.getLast?_reverse]
    simp only [List.head?_cons]
    rw [hopeners] at hsorted ⊢
    rw [erase_sorted hsorted, ih]

/-! ## What a matching is like -/

/-- The ranges use each bracket at most once and do not cross; where a closer is left over, every opener
before it is used by a range that has ended. -/
structure Matching (bs : List Bracket) (ranges : List (Position × Position)) : Prop where
  openers : (ranges.map (·.1)).Subperm (bs.filterMap Bracket.opener?)
  closers : (ranges.map (·.2)).Subperm (bs.filterMap Bracket.closer?)
  ordered : ∀ r ∈ ranges, r.1.before r.2 = true
  nested : ∀ r ∈ ranges, ∀ s ∈ ranges, ¬Crosses r s
  leftOver : ∀ c, (ranges.map (·.2)).count c < (bs.filterMap Bracket.closer?).count c →
    ((bs.filterMap Bracket.opener?).filter (·.before c)).Perm
      ((ranges.filter fun r => !c.before r.2).map (·.1))

theorem Matching.perm {bs : List Bracket} {ranges ranges' : List (Position × Position)}
    (h : Matching bs ranges) (hperm : ranges'.Perm ranges) : Matching bs ranges' where
  openers := (hperm.map _).subperm.trans h.openers
  closers := (hperm.map _).subperm.trans h.closers
  ordered r hr := h.ordered r (hperm.subset hr)
  nested r hr s hs := h.nested r (hperm.subset hr) s (hperm.subset hs)
  leftOver c hc := by
    rw [(hperm.map _).count_eq] at hc
    exact (h.leftOver c hc).trans ((hperm.filter _).map _).symm

theorem openers_matched : ∀ (bs : List Bracket) (stack : List Position),
    ((matched stack bs).map (·.1)).Subperm (stack ++ bs.filterMap Bracket.opener?)
  | [], _ => List.nil_subperm
  | .opener p :: bs, stack =>
    (openers_matched bs (p :: stack)).trans (List.perm_middle.symm.subperm)
  | .closer _ :: bs, [] => openers_matched bs []
  | .closer _ :: bs, o :: stack => (List.subperm_cons o).2 (openers_matched bs stack)

theorem closers_matched : ∀ (bs : List Bracket) (stack : List Position),
    ((matched stack bs).map (·.2)).Sublist (bs.filterMap Bracket.closer?)
  | [], _ => List.Sublist.slnil
  | .opener p :: bs, stack => closers_matched bs (p :: stack)
  | .closer c :: bs, [] => (closers_matched bs []).cons c
  | .closer c :: bs, _ :: stack => (closers_matched bs stack).cons_cons c

section
variable {bs : List Bracket} {stack : List Position} {r : Position × Position}

theorem opener_of_matched (hr : r ∈ matched stack bs) : r.1 ∈ stack ∨ r.1 ∈ bs.filterMap Bracket.opener? :=
  List.mem_append.1 ((openers_matched bs stack).subset (List.mem_map_of_mem hr))

theorem closer_of_matched (hr : r ∈ matched stack bs) : r.2 ∈ bs.filterMap Bracket.closer? :=
  (closers_matched bs stack).subset (List.mem_map_of_mem hr)

namespace Open

/-- No later closer stands before a closer. -/
theorem closer_not_before {c : Position} (h : Open stack (.closer c :: bs)) :
    ∀ c' ∈ bs.filterMap Bracket.closer?, c'.before c = false := by
  intro c' hc'
  obtain ⟨b, hb, hclose⟩ := List.mem_filterMap.1 hc'
  have hle := Bracket.not_before_of_le (List.rel_of_pairwise_cons h.sorted hb)
  rwa [b.position_of_closer? c' hclose] at hle

/-- What lies lower on the stack does not come after what lies above it. -/
theorem stack_not_before {o p : Position} (h : Open (o :: stack) bs) (hp : p ∈ stack) : o.before p = false := by
  have hsorted := (List.pairwise_append.1 h.openers).1
  rw [List.reverse_cons] at hsorted
  exact (List.pairwise_append.1 hsorted).2.2 p (List.mem_reverse.2 hp) o (by simp)

end Open

end

theorem ordered_matched : ∀ {bs : List Bracket} {stack : List Position}, Open stack bs →
    ∀ r ∈ matched stack bs, r.1.before r.2 = true
  | [], _, _, _, hr => by cases hr
  | .opener _ :: _, _, h, r, hr => ordered_matched h.push r hr
  | .closer _ :: _, [], h, r, hr => ordered_matched h.skip r hr
  | .closer c :: _, o :: _, h, r, hr => by
    rcases List.mem_cons.1 hr with rfl | hr
    · exact h.closers o (by simp) c (by simp [Bracket.closer?])
    · exact ordered_matched h.skip.pop r hr

theorem nested_matched : ∀ {bs : List Bracket} {stack : List Position}, Open stack bs →
    ∀ r ∈ matched stack bs, ∀ s ∈ matched stack bs, ¬Crosses r s
  | [], _, _, _, hr, _, _ => by cases hr
  | .opener _ :: _, _, h, r, hr, s, hs => nested_matched h.push r hr s hs
  | .closer _ :: _, [], h, r, hr, s, hs => nested_matched h.skip r hr s hs
  | .closer c :: bs, o :: stack, h, r, hr, s, hs => by
    rintro ⟨hrs, hsr, hend⟩
    rcases List.mem_cons.1 hr with rfl | hr <;> rcases List.mem_cons.1 hs with rfl | hs
    · rw [Position.before_iff] at hrs
      omega
    · -- the other range opens below `o` or after `c`
      rcases opener_of_matched hs with hopen | hopen
      · exact Bool.false_ne_true ((h.skip.stack_not_before hopen).symm.trans hrs)
      · exact Bool.false_ne_true ((h.not_before s.1 hopen).symm.trans hsr)
    · exact Bool.false_ne_true ((h.closer_not_before r.2 (closer_of_matched hr)).symm.trans hend)
    · exact nested_matched h.skip.pop r hr s hs ⟨hrs, hsr, hend⟩

theorem leftOver_matched : ∀ {bs : List Bracket} {stack : List Position}, Open stack bs → ∀ c,
    ((matched stack bs).map (·.2)).count c < (bs.filterMap Bracket.closer?).count c →
      ((stack ++ bs.filterMap Bracket.opener?).filter (·.before c)).Perm
        (((matched stack bs).filter fun r => !c.before r.2).map (·.1))
  | [], _, _, _, hc => absurd hc (Nat.not_lt_zero _)
  | .opener p :: bs, stack, h, c, hc =>
    (List.perm_middle.filter _).trans (leftOver_matched h.push c hc)
  | .closer c' :: bs, [], h, c, hc => by
    change ((matched [] bs).map (·.2)).count c < (c' :: bs.filterMap Bracket.closer?).count c at hc
    change ((bs.filterMap Bracket.opener?).filter (·.before c)).Perm
      (((matched [] bs).filter fun r => !c.before r.2).map (·.1))
    by_cases heq : c' = c
    · -- nothing is open at the closer, and what opens later ends later
      subst heq
      have hopeners : (bs.filterMap Bracket.opener?).filter (·.before c') = [] :=
        List.filter_eq_nil_iff.2 fun p hp => by simp [h.not_before p hp]
      have hranges : (matched [] bs).filter (fun r => !c'.before r.2) = [] := by
        refine List.filter_eq_nil_iff.2 fun r hr => ?_
        have hopen := h.not_before r.1 ((opener_of_matched hr).resolve_left (by simp))
        simp [Position.before_of_le hopen (ordered_matched h.skip r hr)]
      rw [hopeners, hranges]
      exact .nil
    · rw [List.count_cons_of_ne heq] at hc
      exact leftOver_matched h.skip c hc
  | .closer c' :: bs, o :: stack, h, c, hc => by
    change (c' :: (matched stack bs).map (·.2)).count c < (c' :: bs.filterMap Bracket.closer?).count c at hc
    change ((o :: (stack ++ bs.filterMap Bracket.opener?)).filter (·.before c)).Perm
      ((((o, c') :: matched stack bs).filter fun r => !c.before r.2).map (·.1))
    rw [List.count_cons, List.count_cons, Nat.add_lt_add_iff_right] at hc
    have hmem : c ∈ bs.filterMap Bracket.closer? := List.count_pos_iff.1 (Nat.zero_lt_of_lt hc)
    have hended : c.before c' = false := h.closer_not_before c hmem
    have hopen : o.before c = true := h.closers o (by simp) c (by simp [Bracket.closer?, hmem])
    simp only [List.filter_cons, hopen, hended, Bool.not_false, if_true, List.map_cons]
    exact (leftOver_matched h.skip.pop c hc).cons o

theorem matching_matched {bs : List Bracket} (h : Open [] bs) : Matching bs (matched [] bs) where
  openers := openers_matched bs []
  closers := (closers_matched bs []).subperm
  ordered := ordered_matched h
  nested := nested_matched h
  leftOver := leftOver_matched h

/-! ## The ranges of a file -/

/-- An owner without a closer has no range. -/
theorem ownerRanges_of_not_mem (h : owner ∉ closingOwners uses file) :
    ownerRanges declared uses file owner = [] := by
  have hclosers : closers uses owner file = [] := by
    rw [closers, List.filter_eq_nil_iff.2, List.map_nil, sortPositions, List.mergeSort_nil]
    intro u hu hcloses
    simp only [Use.isOf, Bool.and_eq_true, decide_eq_true_eq] at hcloses
    refine h (List.mem_eraseDups.2 (List.mem_map.2 ⟨u, List.mem_filter.2 ⟨hu, ?_⟩, hcloses.1.1⟩))
    simp [hcloses.1.2, hcloses.2]
  rw [ownerRanges, hclosers, pairUp, List.map_nil]

theorem flatMap_ownerRanges : ∀ {owners : List EntityKey}, owners.Nodup →
    (owners.flatMap (ownerRanges declared uses file)).filter (·.owner = owner) =
      if owner ∈ owners then ownerRanges declared uses file owner else []
  | [], _ => rfl
  | first :: owners, h => by
    obtain ⟨hfirst, h⟩ := List.nodup_cons.1 h
    have hown : (ownerRanges declared uses file first).filter (·.owner = owner) =
        if first = owner then ownerRanges declared uses file first else [] := by
      rw [ownerRanges, List.filter_map]
      by_cases heq : first = owner <;> simp [heq, Function.comp_def]
    rw [List.flatMap_cons, List.filter_append, hown, flatMap_ownerRanges h]
    by_cases heq : first = owner
    · subst heq
      simp [hfirst]
    · simp [heq, Ne.symm heq]

/-- Of the ranges of a file those of one owner are the ranges of that owner. -/
theorem filter_scopeRanges (declared : List EntityKey) (uses : List Use) (owner : EntityKey) (file : String) :
    ((scopeRanges declared uses file).filter (·.owner = owner)).Perm (ownerRanges declared uses file owner) := by
  refine ((List.mergeSort_perm _ _).filter _).trans (.of_eq ?_)
  have hnodup : (closingOwners uses file).Nodup := nodup_eraseDups _
  rw [flatMap_ownerRanges hnodup]
  split
  · rfl
  next h => rw [ownerRanges_of_not_mem h]

theorem scopeRanges_sorted (declared : List EntityKey) (uses : List Use) (file : String) :
    (scopeRanges declared uses file).Pairwise fun r s => s.start.before r.start = false := by
  have htrans (r s t : ScopeRange) (h₁ : (!s.start.before r.start) = true)
      (h₂ : (!t.start.before s.start) = true) : (!t.start.before r.start) = true := by
    rw [Bool.not_eq_true', Position.not_before] at *
    omega
  have htotal (r s : ScopeRange) : (!s.start.before r.start || !r.start.before s.start) = true := by
    rw [Bool.or_eq_true, Bool.not_eq_true', Bool.not_eq_true', Position.not_before, Position.not_before]
    omega
  exact (List.pairwise_mergeSort htrans htotal _).imp fun h => Bool.not_eq_true' _ ▸ h

/-- The table gives each file its ranges; a file that it does not name has none. -/
theorem lookup_scopeTable (declared : List EntityKey) (uses : List Use) (file : String) :
    ((scopeTable declared uses).lookup file).getD [] = scopeRanges declared uses file := by
  rw [scopeTable, lookup_map]
  split
  · rfl
  next h =>
    have hnone : closingOwners uses file = [] := by
      rw [closingOwners, List.filter_eq_nil_iff.2, List.map_nil, List.eraseDups_nil]
      intro u hu hcloses
      simp only [Bool.and_eq_true, decide_eq_true_eq] at hcloses
      exact h (List.mem_eraseDups.2 (List.mem_map.2 ⟨u, hu, hcloses.1⟩))
    rw [scopeRanges, hnone, List.flatMap_nil, List.mergeSort_nil, Option.getD_none]

/-- The ranges of an entity in a file are those that a stack matches. -/
theorem perm_matched (declared : List EntityKey) (uses : List Use) (owner : EntityKey) (file : String) :
    (((scopeRanges declared uses file).filter (·.owner = owner)).map fun r => (r.start, r.stop)).Perm
      (matched [] (brackets declared uses owner file)) := by
  have hpairs : pairUp (openers declared uses owner file) (closers uses owner file) =
      matched [] (brackets declared uses owner file) := by
    have hmatched := pairUp_eq_matched (open_brackets declared uses owner file)
    rwa [List.reverse_nil, List.nil_append, openers_eq, closers_eq] at hmatched
  refine ((filter_scopeRanges declared uses owner file).map _).trans (.of_eq ?_)
  rw [ownerRanges, List.map_map, hpairs]
  exact List.map_id _

/-- **The ranges of an entity in a file are those of the stack matching of its brackets**, each as often
as the matching yields it. So no bracket is used twice, every range starts before it ends, no two cross,
and before a closer that is left over no opener is unused. The ranges of a file are sorted by their
starts, and the table gives each file its ranges. -/
theorem scopeRanges_matching (declared : List EntityKey) (uses : List Use) (owner : EntityKey) (file : String) :
    let bs := brackets declared uses owner file
    let ranges := ((scopeRanges declared uses file).filter (·.owner = owner)).map fun r => (r.start, r.stop)
    ranges.Perm (matched [] bs) ∧ Matching bs ranges ∧
      ((scopeRanges declared uses file).Pairwise fun r s => s.start.before r.start = false) ∧
      ((scopeTable declared uses).lookup file).getD [] = scopeRanges declared uses file := by
  have hperm := perm_matched declared uses owner file
  exact ⟨hperm, (matching_matched (open_brackets declared uses owner file)).perm hperm,
    scopeRanges_sorted declared uses file, lookup_scopeTable declared uses file⟩

end Artifact

end Crossref
