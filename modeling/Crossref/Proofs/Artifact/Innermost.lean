/-
The scope of a reference. Of the ranges of its file that hold it, the reference goes to
the last one, so to one that starts latest. Where several ranges start there, the last
one need not be the shortest: the scope is that of an innermost range exactly if its
owner also has the shortest range among those that start latest.
-/
import Crossref.Proofs.Artifact.Brackets
import Crossref.Proofs.Artifact.Closed

namespace Crossref

open Artifact

def Reference.use (r : Reference) : Use :=
  ⟨r.target, r.location, r.kind⟩

/-- The scope ranges of a file of the unit. -/
def CompilationUnit.ranges (u : CompilationUnit) (file : String) : List ScopeRange :=
  scopeRanges u.keys (u.references.map Reference.use) file

namespace Artifact

namespace ScopeRange

/-- The position is strictly inside. -/
def Holds (r : ScopeRange) (p : Position) : Prop :=
  r.start.before p = true ∧ p.before r.stop = true

instance (r : ScopeRange) (p : Position) : Decidable (r.Holds p) :=
  inferInstanceAs (Decidable (_ ∧ _))

/-- The first range does not reach beyond the second and is not the same range. -/
def Within (s r : ScopeRange) : Prop :=
  s.start.before r.start = false ∧ r.stop.before s.stop = false ∧ ¬(s.start = r.start ∧ s.stop = r.stop)

/-- The range holds the position, and no range that holds it lies properly within this one. -/
def Innermost (ranges : List ScopeRange) (p : Position) (r : ScopeRange) : Prop :=
  r ∈ ranges ∧ r.Holds p ∧ ∀ s ∈ ranges, s.Holds p → ¬s.Within r

end ScopeRange

/-- The ranges that hold the position, in order. -/
def holding (ranges : List ScopeRange) (p : Position) : List ScopeRange :=
  ranges.filter fun r => r.Holds p

end Artifact

/-- Where some range holds the reference its scope is the owner of an innermost one, and elsewhere it
has none. -/
def CompilationUnit.ScopedInnermost (u : CompilationUnit) (r : Reference) : Prop :=
  let ranges := u.ranges r.location.file
  let p := r.location.position
  ((∀ s ∈ ranges, ¬s.Holds p) → r.scope = none) ∧
    ((∃ s ∈ ranges, s.Holds p) → ∃ s : ScopeRange, s.Innermost ranges p ∧ r.scope = some s.owner)

namespace Artifact

variable {ranges : List ScopeRange} {p : Position} {r s t : ScopeRange}

/-! ## The last range that holds a position -/

theorem mem_holding : r ∈ holding ranges p ↔ r ∈ ranges ∧ r.Holds p := by
  rw [holding, List.mem_filter, decide_eq_true_eq]

/-- Where a property does not come back after it is lost, what has it stands in front. -/
theorem takeWhile_eq_filter {α : Type} {q : α → Bool} {l : List α}
    (h : l.Pairwise fun a b => q b = true → q a = true) : l.takeWhile q = l.filter q := by
  induction l with
  | nil => rfl
  | cons a l ih =>
    obtain ⟨hfirst, hrest⟩ := List.pairwise_cons.1 h
    cases ha : q a with
    | true => rw [List.takeWhile_cons_of_pos ha, List.filter_cons_of_pos ha, ih hrest]
    | false =>
      have hnone : l.filter q = [] :=
        List.filter_eq_nil_iff.2 fun b hb hq => Bool.false_ne_true (ha.symm.trans (hfirst b hb hq))
      rw [List.takeWhile_cons_of_neg (by simp [ha]), List.filter_cons_of_neg (by simp [ha]), hnone]

section
variable (hsorted : ranges.Pairwise fun r s => s.start.before r.start = false)
include hsorted

/-- The scan for a scope ends with the last range that holds the position. -/
theorem innermost_eq (p : Position) : innermost ranges p = (holding ranges p).getLast?.map (·.owner) := by
  have hfront : ranges.takeWhile (·.start.before p) = ranges.filter (·.start.before p) :=
    takeWhile_eq_filter (hsorted.imp fun hle hs => Position.before_of_le hle hs)
  rw [innermost, hfront, List.filter_filter]
  congr 3
  funext r
  rw [Bool.eq_iff_iff, Bool.and_eq_true, decide_eq_true_eq]
  exact and_comm

/-- The last range that holds a position starts latest. -/
theorem last_latest (ht : (holding ranges p).getLast? = some t) (hs : s ∈ holding ranges p) :
    t.start.before s.start = false := by
  obtain ⟨before, hsplit⟩ := List.getLast?_eq_some_iff.1 ht
  have hholding : (holding ranges p).Pairwise fun r s => s.start.before r.start = false :=
    hsorted.sublist List.filter_sublist
  rw [hsplit] at hholding hs
  rcases List.mem_append.1 hs with hs | hs
  · exact (List.pairwise_append.1 hholding).2.2 s hs t (by simp)
  · rw [List.mem_singleton.1 hs, Position.not_before]
    omega

end

/-! ## Innermost ranges -/

/-- A range that starts latest, and ends first among those that start there, is innermost. -/
theorem innermost_of_shortest (hr : r ∈ holding ranges p)
    (hlatest : ∀ s ∈ holding ranges p, r.start.before s.start = false)
    (hshortest : ∀ s ∈ holding ranges p, s.start = r.start → s.stop.before r.stop = false) :
    r.Innermost ranges p := by
  refine ⟨(mem_holding.1 hr).1, (mem_holding.1 hr).2, fun s hs hholds ⟨hstart, hstop, hne⟩ => ?_⟩
  have hmem := mem_holding.2 ⟨hs, hholds⟩
  have heq := Position.eq_of_not_before hstart (hlatest s hmem)
  exact hne ⟨heq, Position.eq_of_not_before (hshortest s hmem heq) hstop⟩

/-- An innermost range of an owner whose ranges do not cross starts as late as any other range of the
owner that holds the position. -/
theorem start_of_innermost (hs : s.Innermost ranges p) (ht : t ∈ holding ranges p)
    (hcross : ¬Crosses (s.start, s.stop) (t.start, t.stop)) (hle : t.start.before s.start = false) :
    s.start = t.start := by
  obtain ⟨-, ⟨hsp, hps⟩, hinner⟩ := hs
  obtain ⟨hmem, htp, hpt⟩ := mem_holding.1 ht
  by_contra hne
  have hbefore : s.start.before t.start = true := by
    by_contra hnot
    exact hne (Position.eq_of_not_before (Bool.not_eq_true _ ▸ hnot) hle)
  -- the other range opens inside `s`, so it closes inside
  have hstop : s.stop.before t.stop = false := by
    by_contra hnot
    exact hcross ⟨hbefore, Position.before_trans htp hps, Bool.not_eq_false _ ▸ hnot⟩
  exact hinner t hmem ⟨htp, hpt⟩ ⟨hle, hstop, fun heq => hne heq.1.symm⟩

/-- An innermost range ends first among the ranges that start with it. -/
theorem shortest_of_innermost (hr : r.Innermost ranges p) (hs : s ∈ holding ranges p)
    (hstart : s.start = r.start) : s.stop.before r.stop = false := by
  by_contra hnot
  have hbefore : s.stop.before r.stop = true := Bool.not_eq_false _ ▸ hnot
  have hsame : s.start.before r.start = false := by
    rw [hstart, Position.not_before]
    omega
  have hafter : r.stop.before s.stop = false := by
    rw [Position.before_iff] at hbefore
    rw [Position.not_before]
    omega
  refine hr.2.2 s (mem_holding.1 hs).1 (mem_holding.1 hs).2 ⟨hsame, hafter, fun heq => ?_⟩
  rw [heq.2] at hafter hbefore
  exact Bool.false_ne_true (hafter.symm.trans hbefore)

/-- No two ranges of an owner in a file cross. -/
theorem not_crosses {declared : List EntityKey} {uses : List Use} {file : String}
    (hs : s ∈ scopeRanges declared uses file) (ht : t ∈ scopeRanges declared uses file)
    (howner : s.owner = t.owner) : ¬Crosses (s.start, s.stop) (t.start, t.stop) := by
  have hranges {r : ScopeRange} (hr : r ∈ scopeRanges declared uses file) (hr' : r.owner = t.owner) :
      (r.start, r.stop) ∈ matched [] (brackets declared uses t.owner file) := by
    refine (perm_matched declared uses t.owner file).subset (List.mem_map.2 ⟨r, ?_, rfl⟩)
    exact List.mem_filter.2 ⟨hr, decide_eq_true hr'⟩
  exact nested_matched (open_brackets declared uses t.owner file) _ (hranges hs howner) _ (hranges ht rfl)

/-- The owner of the last range has an innermost one exactly if it has one of the shortest among those that
start latest. -/
theorem exists_innermost_iff (hsorted : ranges.Pairwise fun r s => s.start.before r.start = false)
    (hcross : ∀ r ∈ ranges, ∀ s ∈ ranges, r.owner = s.owner → ¬Crosses (r.start, r.stop) (s.start, s.stop))
    (ht : (holding ranges p).getLast? = some t) :
    (∃ s : ScopeRange, s.Innermost ranges p ∧ s.owner = t.owner) ↔
      ∃ s ∈ holding ranges p, s.owner = t.owner ∧ s.start = t.start ∧
        ∀ s' ∈ holding ranges p, s'.start = t.start → s'.stop.before s.stop = false := by
  have hlatest : ∀ s ∈ holding ranges p, t.start.before s.start = false := fun s hs => last_latest hsorted ht hs
  have htheld := List.mem_of_getLast? ht
  constructor
  · rintro ⟨s, hs, howner⟩
    have hsheld : s ∈ holding ranges p := mem_holding.2 ⟨hs.1, hs.2.1⟩
    have hstart : s.start = t.start :=
      start_of_innermost hs htheld (hcross s hs.1 t (mem_holding.1 htheld).1 howner) (hlatest s hsheld)
    exact ⟨s, hsheld, howner, hstart, fun s' hs' heq => shortest_of_innermost hs hs' (heq.trans hstart.symm)⟩
  · rintro ⟨s, hs, howner, hstart, hends⟩
    refine ⟨s, innermost_of_shortest hs ?_ fun s' hs' heq => hends s' hs' (heq.trans hstart), howner⟩
    rw [hstart]
    exact hlatest

/-! ## The scopes of a unit -/

theorem Draft.ranges_toUnit (d : Draft) (file : String) :
    d.toUnit.ranges file = scopeRanges d.keys d.uses file := by
  have huses : d.toUnit.references.map Reference.use = d.uses := by
    unfold toUnit
    rw [List.map_map]
    exact List.map_id' _
  rw [CompilationUnit.ranges, huses, d.keys_toUnit]

/-- A reference goes to the last range of its file that holds it. -/
theorem Draft.scope_toUnit (d : Draft) : ∀ r ∈ d.toUnit.references,
    r.scope = (holding (d.toUnit.ranges r.location.file) r.location.position).getLast?.map (·.owner) := by
  refine List.forall_mem_map.2 fun u _ => ?_
  rw [d.ranges_toUnit, ← innermost_eq (scopeRanges_sorted _ _ _)]
  dsimp only
  rw [scopeOf, lookup_scopeTable]

/-- A unit that is read comes from a draft. -/
theorem exists_draft {path checksum : String} {text : List Char} {u : CompilationUnit}
    (h : readText path checksum text = .ok u) : ∃ d : Draft, d.toUnit = u := by
  obtain ⟨d, -, hd⟩ := (Draft.invariant_labels path checksum).readLines ⟨rfl, rfl⟩ h
  exact ⟨d, hd⟩

/-- **The scope of a reference is the owner of the last range that holds it**, and that range starts latest.
It is the owner of an innermost range exactly if, among the ranges that start with the last one, one that
ends first has the same owner. -/
theorem scope_innermost_iff {path checksum : String} {text : List Char} {u : CompilationUnit}
    (h : readText path checksum text = .ok u) {r : Reference} (hr : r ∈ u.references) :
    let held := holding (u.ranges r.location.file) r.location.position
    r.scope = held.getLast?.map (·.owner) ∧
      (∀ t, held.getLast? = some t → ∀ s ∈ held, t.start.before s.start = false) ∧
      (u.ScopedInnermost r ↔ ∀ t, held.getLast? = some t →
        ∃ s ∈ held, s.owner = t.owner ∧ s.start = t.start ∧
          ∀ s' ∈ held, s'.start = t.start → s'.stop.before s.stop = false) := by
  intro held
  obtain ⟨d, rfl⟩ := exists_draft h
  have hscope : r.scope = held.getLast?.map (·.owner) := d.scope_toUnit r hr
  have hranges := d.ranges_toUnit r.location.file
  have hsorted : (d.toUnit.ranges r.location.file).Pairwise fun r s => s.start.before r.start = false := by
    rw [hranges]
    exact scopeRanges_sorted _ _ _
  have hcross : ∀ s ∈ d.toUnit.ranges r.location.file, ∀ t ∈ d.toUnit.ranges r.location.file,
      s.owner = t.owner → ¬Crosses (s.start, s.stop) (t.start, t.stop) := by
    rw [hranges]
    exact fun s hs t ht howner => not_crosses hs ht howner
  refine ⟨hscope, fun t ht s hs => last_latest hsorted ht hs, fun hinner t ht => ?_,
    fun hshortest => ⟨fun hnone => ?_, ?_⟩⟩
  · obtain ⟨s, hs, howner⟩ := hinner.2 ⟨t, mem_holding.1 (List.mem_of_getLast? ht)⟩
    rw [hscope, ht, Option.map_some] at howner
    exact (exists_innermost_iff hsorted hcross ht).1 ⟨s, hs, (Option.some.inj howner).symm⟩
  · have hempty : held = [] :=
      List.eq_nil_iff_forall_not_mem.2 fun s hs => hnone s (mem_holding.1 hs).1 (mem_holding.1 hs).2
    rw [hscope, hempty]
    rfl
  · rintro ⟨s, hs⟩
    obtain ⟨t, ht⟩ : ∃ t, held.getLast? = some t :=
      ⟨_, List.getLast?_eq_some_getLast (List.ne_nil_of_mem (mem_holding.2 hs))⟩
    obtain ⟨s', hs', howner⟩ := (exists_innermost_iff hsorted hcross ht).2 (hshortest t ht)
    exact ⟨s', hs', by rw [hscope, ht, howner]; rfl⟩

/-! Two functions, the first of which closes first, and a reference that stands in both. If the second one is
declared later their ranges cross, and the reference goes to the second one, whose range is innermost. If both
are declared at one place the reference still goes to the second one, around the first. -/

namespace TwoScopes

/-- The second function is declared on the line. -/
def text (line : Nat) : String :=
  "V \"1\"\nU v%b v.adb 00000000\nD v.adb 20240101000000 00000000\nX 1 v.adb\n1V1*F 5t1\n" ++ line.repr ++
    "V1*G 9t1\n3V1*H 3r1\n"

def f : EntityKey :=
  ⟨"F", "v.adb", 1, 1⟩

def g (line : Nat) : EntityKey :=
  ⟨"G", "v.adb", line, 1⟩

def h : EntityKey :=
  ⟨"H", "v.adb", 3, 1⟩

def uses (line : Nat) : List Use :=
  [⟨f, ⟨"v.adb", 5, 1⟩, .endOfBody⟩, ⟨g line, ⟨"v.adb", 9, 1⟩, .endOfBody⟩, ⟨h, ⟨"v.adb", 3, 1⟩, .read⟩]

def first : ScopeRange :=
  ⟨⟨1, 1⟩, ⟨5, 1⟩, f⟩

def second (line : Nat) : ScopeRange :=
  ⟨⟨line, 1⟩, ⟨9, 1⟩, g line⟩

theorem exists_read {line : Nat} (hline : line = 1 ∨ line = 2) :
    ∃ u, readText "v.ali" "" (text line).toList = .ok u ∧ u.ranges "v.adb" = [first, second line] ∧
      ∃ r ∈ u.references, r.location = ⟨"v.adb", 3, 1⟩ := by
  have hread : (readText "v.ali" "" (text line).toList).map (fun u => (u.keys, u.references.map Reference.use)) =
      .ok ([f, g line, h], uses line) := by
    rcases hline with rfl | rfl <;> decide +kernel
  have hranges : scopeRanges [f, g line, h] (uses line) "v.adb" = [first, second line] := by
    have hall : (closingOwners (uses line) "v.adb").flatMap (ownerRanges [f, g line, h] (uses line) "v.adb") =
        [first, second line] := by
      rcases hline with rfl | rfl <;> decide +kernel
    rw [scopeRanges, hall]
    rcases hline with rfl | rfl <;> exact List.mergeSort_of_pairwise (by decide)
  obtain ⟨u, hu⟩ : ∃ u, readText "v.ali" "" (text line).toList = .ok u := by
    cases hu : readText "v.ali" "" (text line).toList with
    | ok u => exact ⟨u, rfl⟩
    | error e => rw [hu] at hread; cases hread
  obtain ⟨hkeys, huses⟩ := Prod.mk.inj (Except.ok.inj (hu ▸ hread))
  refine ⟨u, hu, by rw [CompilationUnit.ranges, hkeys, huses, hranges], ?_⟩
  obtain ⟨r, hr, huse⟩ : ∃ r ∈ u.references, r.use = ⟨h, ⟨"v.adb", 3, 1⟩, .read⟩ :=
    List.mem_map.1 (huses ▸ by simp [uses])
  exact ⟨r, hr, congrArg Use.location huse⟩

theorem second_innermost : ∃ u, readText "v.ali" "" (text 2).toList = .ok u ∧ ∃ r ∈ u.references,
    r.scope = some (g 2) ∧ u.ScopedInnermost r := by
  obtain ⟨u, hu, hranges, r, hr, hlocation⟩ := exists_read (.inr rfl)
  obtain ⟨hscope, -, hiff⟩ := scope_innermost_iff hu hr
  rw [hlocation, hranges] at hscope hiff
  refine ⟨u, hu, r, hr, hscope.trans (by decide), hiff.2 fun t ht => ?_⟩
  obtain rfl : second 2 = t := Option.some.inj (Eq.trans (by decide) ht)
  exact ⟨second 2, by decide, rfl, rfl, by decide⟩

theorem second_around_first : ∃ u, readText "v.ali" "" (text 1).toList = .ok u ∧ ∃ r ∈ u.references,
    u.ranges r.location.file = [first, second 1] ∧ r.location.position = ⟨3, 1⟩ ∧ r.scope = some (g 1) ∧
      ¬u.ScopedInnermost r := by
  obtain ⟨u, hu, hranges, r, hr, hlocation⟩ := exists_read (.inl rfl)
  have hscope : r.scope = some (g 1) := by
    obtain ⟨d, rfl⟩ := exists_draft hu
    rw [d.scope_toUnit r hr, hlocation, hranges]
    decide
  refine ⟨u, hu, r, hr, by rw [hlocation, hranges], by rw [hlocation]; rfl, hscope, fun hinner => ?_⟩
  unfold CompilationUnit.ScopedInnermost at hinner
  rw [hlocation, hranges] at hinner
  obtain ⟨s, ⟨hs, -, hleast⟩, howner⟩ := hinner.2 ⟨first, by decide, by decide⟩
  rcases List.mem_pair.1 hs with rfl | rfl
  · rw [hscope] at howner
    exact absurd howner (by decide)
  · exact hleast first (by decide) (by decide) ⟨by decide, by decide, by decide⟩

end TwoScopes

end Artifact

end Crossref
