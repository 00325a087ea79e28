/-
Links that are followed by their names. A link is followed until it leads to a place or
gets stuck at a link that is being followed already. There are only so many ways to come
to a link, so this happens before the count of links to be followed runs out: a larger
count makes no difference. No link is left on the way to the place that a path is resolved
to, so that the path to that place is resolved to it again.
-/
import Mathlib.Data.List.Perm.Subperm
import Crossref.FileTree

namespace Crossref

namespace FileTree

variable {t : FileTree}

/-! ## What holds of all spots on the way -/

/-- What holds of a spot holds of those that the segments of a path lead to from there. -/
structure Lasts (t : FileTree) (P : Spot → Prop) : Prop where
  start : ∀ {s}, P s → ∀ p, P (s.start p)
  parent : ∀ {s}, P s → P (s.parent t.cwd)
  child : ∀ {s segment}, P s → segment ≠ ".." → t.links.lookup (s.child segment).place = none → P (s.child segment)

namespace Lasts

variable {P : Spot → Prop}

theorem pursue (h : t.Lasts P) {enter : Spot → String → Path → Except Place Spot}
    (henter : ∀ s segment target s', P s → enter s segment target = .ok s' → P s') (segments : List String)
    {s s' : Spot} (hs : P s) (hs' : t.pursue enter s segments = .ok s') : P s' := by
  induction segments generalizing s with
  | nil => exact Except.ok.inj hs' ▸ hs
  | cons segment rest ih =>
    unfold FileTree.pursue at hs'
    split at hs'
    · exact ih (h.parent hs) hs'
    next hup =>
      split at hs'
      next hnone => exact ih (h.child hs hup hnone) hs'
      next target _ =>
        split at hs'
        next s'' hentered => exact ih (henter s segment target s'' hs hentered) hs'
        · cases hs'

theorem enterLink (h : t.Lasts P) (fuel : Nat) : ∀ (opened : List Spot) (s : Spot) (segment : String) (target : Path)
    (s' : Spot), P s → t.enterLink fuel opened s segment target = .ok s' → P s' := by
  induction fuel with
  | zero => exact fun opened s segment target s' _ hs' => by cases hs'
  | succ fuel ih =>
    intro opened s segment target s' hs hs'
    unfold FileTree.enterLink at hs'
    split at hs'
    · cases hs'
    · exact h.pursue (ih (s.child segment :: opened)) target.segments (h.start hs target) hs'

theorem realPlace (h : t.Lasts P) (hcwd : P ⟨t.cwd, some 0⟩) {p : Path} {q : Place} (hq : t.realPlace p = .ok q) :
    ∃ up, P ⟨q, up⟩ := by
  unfold FileTree.realPlace at hq
  cases hs : t.pursue (t.enterLink (t.linkSpots + 1) []) (Spot.start ⟨t.cwd, some 0⟩ p) p.segments with
  | error stuck =>
    rw [hs] at hq
    cases hq
  | ok s =>
    rw [hs] at hq
    obtain rfl := Except.ok.inj hq
    exact ⟨s.up, h.pursue (h.enterLink _ []) p.segments (h.start hcwd p) hs⟩

end Lasts

/-! ## How many ways there are -/

/-- A relative path goes up from the working directory as far as the root and no further. -/
def Spot.Below (cwd : Place) (s : Spot) : Prop :=
  ∀ up ∈ s.up, up ≤ cwd.length

theorem lasts_below (t : FileTree) : t.Lasts (Spot.Below t.cwd) where
  start := by
    intro s h p
    unfold Spot.start
    split
    · exact fun up hup => by cases hup
    · exact h
  parent := by
    intro s h up hup
    obtain ⟨before, hbefore, rfl⟩ := Option.map_eq_some_iff.1 hup
    have hle := h before hbefore
    omega
  child h _ _ := h

/-- All ways in which a path may lead to a link. -/
def spots (t : FileTree) : List Spot :=
  t.links.flatMap fun link => (none :: (List.range (t.cwd.length + 1)).map some).map (⟨link.1, ·⟩)

theorem length_spots (t : FileTree) : t.spots.length = t.linkSpots := by
  unfold spots linkSpots
  rw [List.length_flatMap]
  simp [List.map_const']

theorem mem_spots {s : Spot} {target : Path} (h : s.Below t.cwd) (hlink : t.links.lookup s.place = some target) :
    s ∈ t.spots := by
  obtain ⟨before, after, hsplit, -⟩ := List.lookup_eq_some_iff.1 hlink
  refine List.mem_flatMap.2 ⟨(s.place, target), by simp [hsplit], ?_⟩
  obtain ⟨place, _ | up⟩ := s
  · simp
  · have hup := h up rfl
    simp
    omega

/-- What follows a link is asked for links only. -/
theorem pursue_congr_links {enter enter' : Spot → String → Path → Except Place Spot}
    (hsame : ∀ s segment target, s.Below t.cwd → t.links.lookup (s.child segment).place = some target →
      enter s segment target = enter' s segment target)
    (hbelow : ∀ s segment target s', s.Below t.cwd → enter s segment target = .ok s' → s'.Below t.cwd)
    (segments : List String) {s : Spot} (h : s.Below t.cwd) :
    t.pursue enter s segments = t.pursue enter' s segments := by
  induction segments generalizing s with
  | nil => rfl
  | cons segment rest ih =>
    unfold pursue
    split
    · exact ih (t.lasts_below.parent h)
    · cases hlink : t.links.lookup (s.child segment).place with
      | none => exact ih h
      | some target =>
        dsimp only
        rw [← hsame s segment target h hlink]
        cases hentered : enter s segment target with
        | error stuck => rfl
        | ok s' => exact ih (hbelow s segment target s' h hentered)

/-- As long as not all links are being followed there is one that may be. -/
theorem enterLink_succ (fuel : Nat) : ∀ (opened : List Spot), opened.Nodup → opened ⊆ t.spots →
    t.linkSpots < fuel + opened.length → ∀ (s : Spot) (segment : String) (target : Path), s.Below t.cwd →
      t.links.lookup (s.child segment).place = some target →
      t.enterLink fuel opened s segment target = t.enterLink (fuel + 1) opened s segment target := by
  induction fuel with
  | zero =>
    intro opened hnodup hsub hfuel
    have hle := (hnodup.subperm hsub).length_le
    rw [length_spots] at hle
    omega
  | succ fuel ih =>
    intro opened hnodup hsub hfuel s segment target h hlink
    unfold enterLink
    split
    · rfl
    next hnew =>
      have hnew' : s.child segment ∉ opened := by simpa using hnew
      have hmem : s.child segment ∈ t.spots := mem_spots h hlink
      refine pursue_congr_links (ih _ (List.nodup_cons.2 ⟨hnew', hnodup⟩) (List.cons_subset.2 ⟨hmem, hsub⟩) ?_)
        (t.lasts_below.enterLink fuel _) target.segments (t.lasts_below.start h target)
      rw [List.length_cons]
      omega

/-- **Links are followed to their end.** However many more links may be followed one within the other, the path
leads to the same place or gets stuck at the same one. -/
theorem realPlace_more (t : FileTree) (p : Path) (more : Nat) :
    t.realPlace p =
      (t.pursue (t.enterLink (t.linkSpots + 1 + more) []) (Spot.start ⟨t.cwd, some 0⟩ p) p.segments).map (·.place) := by
  have hcwd : Spot.Below t.cwd ⟨t.cwd, some 0⟩ := by
    intro up hup
    obtain rfl := Option.some.inj hup
    exact Nat.zero_le _
  unfold realPlace
  refine congrArg (Except.map fun s : Spot => s.place) ?_
  induction more with
  | zero => rfl
  | succ more ih =>
    rw [ih]
    refine pursue_congr_links (enterLink_succ _ [] List.nodup_nil (List.nil_subset _) ?_)
      (t.lasts_below.enterLink _ []) p.segments (t.lasts_below.start hcwd p)
    rw [List.length_nil]
    omega

/-- A link that leads to itself cannot be followed, but what stands beside it is named by going through it. -/
example : (FileTree.mk ["t"] [(["t"], .directory)] [(["t", "l"], Path.ofString "l")]).resolve "l" =
      .error (.linkLoop "/t/l") ∧
    (FileTree.mk ["t"] [(["t"], .directory)] [(["t", "l"], Path.ofString "l")]).resolve "l/../a" = .ok ["t", "a"] := by
  decide +kernel

/-! ## The place that a path is resolved to -/

/-- Nothing on the way to the place is a link or leads back. -/
structure Straight (t : FileTree) (q : Place) : Prop where
  names : ".." ∉ q
  links : ∀ p, p <+: q → t.links.lookup p = none

theorem Straight.of_append {q r : Place} (h : t.Straight (q ++ r)) : t.Straight q where
  names hq := h.names (List.mem_append_left r hq)
  links p hp := h.links p (hp.trans (List.prefix_append q r))

theorem Straight.snoc {q : Place} {segment : String} (h : t.Straight q) (hup : segment ≠ "..")
    (hnone : t.links.lookup (q ++ [segment]) = none) : t.Straight (q ++ [segment]) where
  names hmem := by
    rcases List.mem_append.1 hmem with hq | hlast
    · exact h.names hq
    · exact hup (List.mem_singleton.1 hlast).symm
  links p hp := by
    rcases List.prefix_concat_iff.1 hp with rfl | hq
    · exact hnone
    · exact h.links p hq

theorem lasts_straight (h : t.Straight []) : t.Lasts fun s => t.Straight s.place where
  start := by
    intro s hs p
    unfold Spot.start
    split
    · exact h
    · exact hs
  parent := by
    intro s hs
    obtain ⟨r, hr⟩ := List.dropLast_prefix s.place
    rw [← hr] at hs
    exact hs.of_append
  child hs hup hnone := hs.snoc hup hnone

/-- A straight place is reached along its own segments. -/
theorem pursue_straight {enter : Spot → String → Path → Except Place Spot} (segments : List String) {s : Spot}
    (h : t.Straight (s.place ++ segments)) : t.pursue enter s segments = .ok ⟨s.place ++ segments, s.up⟩ := by
  induction segments generalizing s with
  | nil => simp [pursue]
  | cons segment rest ih =>
    rw [List.append_cons] at h ⊢
    have hup : segment ≠ ".." := fun heq => h.names (by simp [heq])
    have hnone : t.links.lookup (s.child segment).place = none := h.of_append.links _ List.prefix_rfl
    rw [pursue, if_neg hup, hnone]
    exact ih h

/-- **A path that is resolved has a place of its own.** No link is left on the way there, and the path to the place is
resolved to the place again. -/
theorem realPlace_ofPlace (hcwd : t.Straight t.cwd) {p : Path} {q : Place} (h : t.realPlace p = .ok q) :
    t.Straight q ∧ t.realPlace (.ofPlace q) = .ok q := by
  have hroot : t.Straight [] := Straight.of_append (r := t.cwd) hcwd
  obtain ⟨up, hq : t.Straight q⟩ := (lasts_straight hroot).realPlace hcwd h
  refine ⟨hq, ?_⟩
  let root : Spot := ⟨[], none⟩
  have hq' : t.Straight (root.place ++ q) := hq
  unfold realPlace
  change (t.pursue _ root q).map _ = _
  rw [pursue_straight q hq']
  rfl

end FileTree

end Crossref
