/-
Files beside one store. Two trees are alike beside a place if they differ at most
in what the store at that place holds. Nothing that is asked of a tree, and no
directory that is made in it, looks into a store; so all of it comes out the same
for both trees.
-/
import Crossref.FileTree
import Crossref.Update.Plan

namespace Crossref.FileTree

/-! ## Putting a node -/

theorem lookup_replace (l : List (Place × Node)) (p q : Place) (n : Node) :
    (l.map fun e => if e.1 = p then (p, n) else e).lookup q =
      if q = p then (l.lookup q).map fun _ => n else l.lookup q := by
  induction l with
  | nil => simp
  | cons e l ih =>
    obtain ⟨r, m⟩ := e
    have hkey : (if r = p then (p, n) else (r, m)) = (r, if r = p then n else m) := by
      split
      next heq => rw [heq]
      next => rfl
    rw [List.map_cons, hkey, List.lookup_cons, List.lookup_cons]
    by_cases hq : q = r
    · subst hq
      by_cases hp : q = p <;> simp [hp]
    · have hne : (q == r) = false := by simpa using hq
      rw [hne]
      exact ih

/-- What is put stands at its place, and all else stays. -/
theorem node?_put {t : FileTree} {q : Place} (hq : q ≠ []) (p : Place) (n : Node) :
    (t.put p n).node? q = if q = p then some n else t.node? q := by
  have hempty : q.isEmpty = false := by simpa using hq
  have hnone : t.nodes.lookup p = none ↔ ¬t.nodes.any (·.1 = p) = true := by
    rw [List.lookup_eq_none_iff, List.any_eq_true]
    constructor
    · rintro h ⟨e, he, heq⟩
      exact absurd (h e he) (by simp [of_decide_eq_true heq])
    · intro h e he
      have hne : e.1 ≠ p := fun heq => h ⟨e, he, by simpa using heq⟩
      simpa using hne.symm
  unfold put node?
  simp only [hempty, Bool.false_eq_true, if_false]
  split
  next h =>
    obtain ⟨m, hm⟩ := Option.ne_none_iff_exists'.1 fun heq => hnone.1 heq h
    rw [lookup_replace]
    by_cases hqp : q = p
    · rw [if_pos hqp, if_pos hqp, hqp, hm, Option.map_some]
    · rw [if_neg hqp, if_neg hqp]
  next h =>
    rw [List.lookup_append, List.lookup_cons]
    by_cases hqp : q = p
    · subst hqp
      simp [hnone.2 h]
    · have hne : (q == p) = false := by simpa using hqp
      simp [hqp, hne]

theorem node?_put_self {t : FileTree} {p : Place} (hp : p ≠ []) (n : Node) :
    (t.put p n).node? p = some n := by
  rw [node?_put hp, if_pos rfl]

theorem node?_put_of_ne {t : FileTree} {p q : Place} (h : q ≠ p) (n : Node) :
    (t.put p n).node? q = t.node? q := by
  by_cases hq : q = []
  · subst hq
    rfl
  · rw [node?_put hq, if_neg h]

theorem node?_root (t : FileTree) : t.node? [] = some .directory := rfl

theorem ne_root_of_store {t : FileTree} {p : Place} {c : Contents} {mtime : Int}
    (h : t.node? p = some (.store c mtime)) : p ≠ [] := by
  rintro rfl
  cases h

/-! ## Following links by their names -/

section
variable {t t' : FileTree} (hcwd : t.cwd = t'.cwd) (hlinks : t.links = t'.links)
include hcwd hlinks

theorem pursue_congr (enter : Spot → String → Path → Except Place Spot) (spot : Spot) (segments : List String) :
    t.pursue enter spot segments = t'.pursue enter spot segments := by
  induction segments generalizing spot with
  | nil => rfl
  | cons segment rest ih =>
    unfold pursue
    rw [hcwd, hlinks]
    simp only [ih]

theorem enterLink_congr (fuel : Nat) (opened : List Spot) : t.enterLink fuel opened = t'.enterLink fuel opened := by
  induction fuel generalizing opened with
  | zero => rfl
  | succ fuel ih =>
    funext directory segment target
    unfold enterLink
    rw [ih, pursue_congr hcwd hlinks]

/-- Where links lead by their names depends on nothing but the links. -/
theorem realPlace_congr (p : Path) : t.realPlace p = t'.realPlace p := by
  unfold realPlace linkSpots
  rw [enterLink_congr hcwd hlinks, pursue_congr hcwd hlinks, hlinks, hcwd]

end

/-! ## Resolving a path -/

/-- A path that can be resolved names the place that it is resolved to. -/
theorem namedPlace_of_resolve {t : FileTree} {path : String} {q : Place} (h : t.resolve path = .ok q) :
    t.namedPlace (.ofString path) = q := by
  unfold resolve at h
  dsimp only at h
  split at h
  · cases h
  · split at h
    · cases h
    · split at h
      · cases h
      · exact Except.ok.inj h

/-- Why a path cannot be resolved: the directory that it starts from is gone, or its links lead round in a circle. -/
inductive Unresolved (t : FileTree) (path : String) : Failure → Prop
  | noStart (start : t.canStart (.ofString path) = false) : Unresolved t path .noWorkingDirectory
  | loop (loops : t.find (.ofPlace (t.namedPlace (.ofString path))) = .error .tooManyLinks) :
      Unresolved t path (.linkLoop (Path.absolute (t.namedPlace (.ofString path))))

theorem unresolved_of_error {t : FileTree} {path : String} {e : Failure}
    (hplain : path.toList.contains (Char.ofNat 0) = false) (h : t.resolve path = .error e) : t.Unresolved path e := by
  unfold resolve at h
  simp only [hplain, Bool.false_eq_true, if_false] at h
  split at h
  next hstart =>
    obtain rfl := Except.error.inj h
    exact .noStart (by simpa using hstart)
  next =>
    split at h
    next hloops =>
      obtain rfl := Except.error.inj h
      exact .loop hloops
    · cases h

/-- A store is where its path says. -/
theorem namedPlace_of_storePlace? {t : FileTree} {p : Path} {q : Place} (h : t.storePlace? p = some q) :
    t.namedPlace p = q := by
  unfold storePlace? at h
  split at h
  · unfold namedPlace
    cases hreal : t.realPlace p with
    | error stuck =>
      rw [hreal] at h
      cases h
    | ok place =>
      rw [hreal] at h
      exact Option.some.inj h
  · cases h

/-! ## Trees that are alike -/

/-- The two trees differ at most in what the store at the place holds. -/
structure Alike (place : Option Place) (t t' : FileTree) : Prop where
  cwd : t.cwd = t'.cwd
  links : t.links = t'.links
  nodes : ∀ p, t.node? p = t'.node? p ∨
    place = some p ∧ ∃ c c' mtime, t.node? p = some (.store c mtime) ∧ t'.node? p = some (.store c' mtime)

namespace Alike

variable {place : Option Place} {t t' t'' : FileTree}

theorem refl (t : FileTree) : Alike place t t :=
  ⟨rfl, rfl, fun _ => .inl rfl⟩

theorem trans (h : Alike place t t') (h' : Alike place t' t'') : Alike place t t'' := by
  refine ⟨h.cwd.trans h'.cwd, h.links.trans h'.links, fun p => ?_⟩
  rcases h.nodes p with heq | ⟨hp, c, c', mtime, hc, hc'⟩
  · rw [heq]
    exact h'.nodes p
  · rcases h'.nodes p with heq' | ⟨-, d, d', mtime', hd, hd'⟩
    · exact .inr ⟨hp, c, c', mtime, hc, heq' ▸ hc'⟩
    · obtain ⟨rfl, rfl⟩ := Node.store.inj (Option.some.inj (hc'.symm.trans hd))
      exact .inr ⟨hp, c, d', mtime, hc, hd'⟩

theorem put (h : Alike place t t') (p : Place) (n : Node) : Alike place (t.put p n) (t'.put p n) := by
  refine ⟨h.cwd, h.links, fun q => ?_⟩
  by_cases hq : q = p
  · subst hq
    by_cases hroot : q = []
    · subst hroot
      exact .inl rfl
    · exact .inl (by rw [node?_put_self hroot, node?_put_self hroot])
  · rw [node?_put_of_ne hq, node?_put_of_ne hq]
    exact h.nodes q

/-- Other contents in the store make a tree that is alike. -/
theorem put_store {p : Place} {c : Contents} {mtime : Int} (h : t.node? p = some (.store c mtime))
    (c' : Contents) : Alike (some p) t (t.put p (.store c' mtime)) := by
  refine ⟨rfl, rfl, fun q => ?_⟩
  by_cases hq : q = p
  · subst hq
    exact .inr ⟨rfl, c, c', mtime, h, node?_put_self (ne_root_of_store h) _⟩
  · exact .inl (node?_put_of_ne hq _).symm

theorem follow (h : Alike place t t') (p : Place) (segment : String) :
    t.follow p segment = t'.follow p segment := by
  unfold FileTree.follow
  rcases h.nodes p with heq | ⟨-, c, c', mtime, hc, hc'⟩
  · rw [heq]
  · rw [hc, hc']

theorem stretch (h : Alike place t t') (last : Bool) (segments : List String) (q : Place) :
    t.stretch last q segments = t'.stretch last q segments := by
  induction segments generalizing q with
  | nil => rfl
  | cons segment rest ih =>
    unfold FileTree.stretch
    rw [h.follow, h.links]
    simp only [ih]

theorem reach (h : Alike place t t') (last : Bool) (budget : Nat) (q : Place) (segments : List String) :
    t.reach last budget q segments = t'.reach last budget q segments := by
  induction budget generalizing q segments with
  | zero =>
    unfold FileTree.reach
    rw [h.stretch]
  | succ budget ih =>
    unfold FileTree.reach
    rw [h.stretch]
    simp only [ih]

theorem locate (h : Alike place t t') (p : Path) : t.locate p = t'.locate p := by
  unfold FileTree.locate
  rw [h.reach, h.cwd]

theorem entry (h : Alike place t t') (p : Path) : t.entry p = t'.entry p := by
  unfold FileTree.entry
  rw [h.reach, h.cwd]

/-- What a path leads to is the same, or it is the store. -/
theorem find (h : Alike place t t') (p : Path) :
    t.find p = t'.find p ∨ ∃ q c c' mtime, place = some q ∧ t.find p = .ok (q, .store c mtime) ∧
      t'.find p = .ok (q, .store c' mtime) := by
  unfold FileTree.find
  rw [h.locate p]
  cases t'.locate p with
  | error fault => exact .inl rfl
  | ok q =>
    simp only [bind, Except.bind]
    rcases h.nodes q with heq | ⟨hq, c, c', mtime, hc, hc'⟩
    · exact .inl (by rw [heq])
    · exact .inr ⟨q, c, c', mtime, hq, by rw [hc]; rfl, by rw [hc']; rfl⟩

theorem isDirectory (h : Alike place t t') (p : Path) : t.isDirectory p = t'.isDirectory p := by
  unfold FileTree.isDirectory
  rcases h.find p with heq | ⟨q, c, c', mtime, -, hc, hc'⟩
  · rw [heq]
  · rw [hc, hc']

theorem isFile (h : Alike place t t') (p : Path) : t.isFile p = t'.isFile p := by
  unfold FileTree.isFile
  rcases h.find p with heq | ⟨q, c, c', mtime, -, hc, hc'⟩
  · rw [heq]
  · rw [hc, hc']

theorem stat (h : Alike place t t') (path : String) : t.stat path = t'.stat path := by
  unfold FileTree.stat
  rcases h.find (.ofString path) with heq | ⟨q, c, c', mtime, -, hc, hc'⟩
  · rw [heq]
  · rw [hc, hc']
    rfl

/-- A store reads as no text, whatever it holds. -/
theorem read (h : Alike place t t') (path : String) : t.read path = t'.read path := by
  unfold FileTree.read
  rcases h.find (.ofString path) with heq | ⟨q, c, c', mtime, -, hc, hc'⟩
  · rw [heq]
  · rw [hc, hc']

/-- Beside no store the trees have the same nodes. -/
theorem node?_eq (h : Alike none t t') (p : Place) : t.node? p = t'.node? p := by
  rcases h.nodes p with heq | ⟨hp, -⟩
  · exact heq
  · cases hp

/-! ## Resolving -/

theorem realPlace (h : Alike place t t') (p : Path) : t.realPlace p = t'.realPlace p :=
  realPlace_congr h.cwd h.links p

theorem namedPlace (h : Alike place t t') (p : Path) : t.namedPlace p = t'.namedPlace p := by
  unfold FileTree.namedPlace
  rw [h.realPlace]

theorem canStart (h : Alike place t t') (p : Path) : t.canStart p = t'.canStart p := by
  unfold FileTree.canStart
  rw [h.isDirectory]

/-- A path is resolved without a look at a store. -/
theorem resolve (h : Alike place t t') (path : String) : t.resolve path = t'.resolve path := by
  unfold FileTree.resolve
  dsimp only
  rw [h.canStart, h.namedPlace]
  rcases h.find (.ofPlace (t'.namedPlace (.ofString path))) with heq | ⟨q, c, c', mtime, -, hc, hc'⟩
  · rw [heq]
  · rw [hc, hc']

theorem storePlace? (h : Alike place t t') (p : Path) : t.storePlace? p = t'.storePlace? p := by
  unfold FileTree.storePlace?
  rw [h.canStart, h.realPlace]

/-! ## Making directories -/

/-- Both fail alike, or both succeed with trees that are alike. -/
def Makes (place : Option Place) (r r' : Except PathError FileTree) : Prop :=
  (∃ e, r = .error e ∧ r' = .error e) ∨ ∃ t t', r = .ok t ∧ r' = .ok t' ∧ Alike place t t'

theorem makeDirectory (h : Alike place t t') (p : Path) (q : Place) :
    Makes place (t.makeDirectory p q) (t'.makeDirectory p q) := by
  have hnone : (t.node? q).isNone = (t'.node? q).isNone := by
    rcases h.nodes q with heq | ⟨-, c, c', mtime, hc, hc'⟩
    · rw [heq]
    · rw [hc, hc']
      rfl
  unfold FileTree.makeDirectory
  rw [hnone, h.links, h.isDirectory]
  split
  · exact .inr ⟨_, _, rfl, rfl, h.put q .directory⟩
  · split
    · exact .inr ⟨t, t', rfl, rfl, h⟩
    · exact .inl ⟨_, rfl, rfl⟩

theorem makeDirectoriesFrom (root : String) : ∀ (above : List String) {t t' : FileTree},
    Alike place t t' →
      Makes place (FileTree.makeDirectoriesFrom root above t) (FileTree.makeDirectoriesFrom root above t')
  | [], t, t', h => .inr ⟨t, t', rfl, rfl, h⟩
  | s :: above, t, t', h => by
    unfold FileTree.makeDirectoriesFrom
    extract_lets p
    rw [h.entry p]
    split
    · exact h.makeDirectory _ _
    · rcases Alike.makeDirectoriesFrom root above h with ⟨e, he, he'⟩ | ⟨u, u', hu, hu', halike⟩
      · rw [he, he']
        exact .inl ⟨e, rfl, rfl⟩
      · rw [hu, hu']
        simp only [bind, Except.bind]
        rw [halike.entry p]
        split
        · exact halike.makeDirectory _ _
        · exact .inl ⟨_, rfl, rfl⟩
    · exact .inl ⟨_, rfl, rfl⟩

theorem makeDirectories (h : Alike place t t') (p : Path) :
    Makes place (t.makeDirectories p) (t'.makeDirectories p) :=
  Alike.makeDirectoriesFrom p.root p.segments.reverse h

end Alike

/-! ## What making directories leaves -/

/-- Nothing that stands is changed. -/
structure Grows (t t' : FileTree) : Prop where
  cwd : t'.cwd = t.cwd
  links : t'.links = t.links
  nodes : ∀ p n, t.node? p = some n → t'.node? p = some n

theorem Grows.refl (t : FileTree) : Grows t t :=
  ⟨rfl, rfl, fun _ _ h => h⟩

theorem Grows.trans {t t' t'' : FileTree} (h : Grows t t') (h' : Grows t' t'') : Grows t t'' :=
  ⟨h'.cwd.trans h.cwd, h'.links.trans h.links, fun p n hn => h'.nodes p n (h.nodes p n hn)⟩

/-- Directories that are made lead no path elsewhere. -/
theorem Grows.namedPlace {t t' : FileTree} (h : Grows t t') (p : Path) : t'.namedPlace p = t.namedPlace p := by
  unfold FileTree.namedPlace
  rw [realPlace_congr h.cwd h.links]

theorem makeDirectory_grows {t t' : FileTree} {p : Path} {q : Place}
    (h : t.makeDirectory p q = .ok t') : Grows t t' := by
  unfold makeDirectory at h
  split at h
  next hnone =>
    refine Except.ok.inj h ▸ ⟨rfl, rfl, fun r n hn => ?_⟩
    have hr : r ≠ q := fun heq => by simp [← heq, hn] at hnone
    rwa [node?_put_of_ne hr]
  next =>
    split at h
    · exact Except.ok.inj h ▸ .refl t
    · cases h

theorem makeDirectoriesFrom_grows (root : String) : ∀ (above : List String) {t t' : FileTree},
    makeDirectoriesFrom root above t = .ok t' → Grows t t'
  | [], t, t', h => Except.ok.inj h ▸ .refl t
  | s :: above, t, t', h => by
    unfold makeDirectoriesFrom at h
    extract_lets p at h
    split at h
    · exact makeDirectory_grows h
    · cases hu : makeDirectoriesFrom root above t with
      | error e =>
        rw [hu] at h
        cases h
      | ok u =>
        rw [hu] at h
        simp only [bind, Except.bind] at h
        split at h
        · exact (makeDirectoriesFrom_grows root above hu).trans (makeDirectory_grows h)
        · cases h
    · cases h

end Crossref.FileTree
