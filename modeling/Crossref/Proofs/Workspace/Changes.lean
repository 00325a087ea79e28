/-
What writing or touching one file changes. A path leads to the same place as long
as it leads anywhere, no directory becomes a file and no file goes away; so a file
that could be read can still be read, and only the file that was written or touched
reads otherwise.
-/
import Crossref.Proofs.Workspace.Files

namespace Crossref

/-- What a file reads as; a directory cannot be read. -/
def Node.content? : Node → Option Text.Bytes
  | .directory => none
  | .bytes content _ => some content
  | .store _ _ => some FileTree.storeMark

namespace FileTree

/-- The place that a path leads to, whether something stands there or not. -/
def placeOf (t : FileTree) (path : String) : Option Place :=
  (t.locate (.ofString path)).toOption

/-- The file at the path can be read, and has this time and content. -/
structure Opens (t : FileTree) (path : String) (mtime : Int) (content : Text.Bytes) : Prop where
  stat : t.stat path = .ok mtime
  read : t.read path = .ok content

/-! ## Where a path leads -/

theorem placeOf_eq_some {t : FileTree} {path : String} {q : Place} :
    t.placeOf path = some q ↔ t.locate (.ofString path) = .ok q := by
  unfold placeOf
  cases t.locate (.ofString path) with
  | error fault => simp [Except.toOption]
  | ok r => simp [Except.toOption]

theorem find_eq_ok {t : FileTree} {p : Path} {q : Place} {n : Node} :
    t.find p = .ok (q, n) ↔ t.locate p = .ok q ∧ t.node? q = some n := by
  unfold find
  cases t.locate p with
  | error fault =>
    constructor
    · intro h
      cases h
    · intro h
      cases h.1
  | ok r =>
    simp only [bind, Except.bind, Except.ok.injEq]
    cases hr : t.node? r with
    | none =>
      constructor
      · intro h
        cases h
      · rintro ⟨rfl, h⟩
        rw [hr] at h
        cases h
    | some m =>
      simp only [pure, Except.pure, Except.ok.injEq, Prod.mk.injEq]
      constructor
      · rintro ⟨rfl, rfl⟩
        exact ⟨rfl, hr⟩
      · rintro ⟨rfl, h⟩
        exact ⟨rfl, Option.some.inj (hr.symm.trans h)⟩

theorem stat_eq_ok {t : FileTree} {path : String} {mtime : Int} (h : t.stat path = .ok mtime) :
    ∃ q n, t.find (.ofString path) = .ok (q, n) ∧ n.mtime = mtime := by
  unfold stat at h
  split at h
  next q n hfind => exact ⟨q, n, hfind, Except.ok.inj h⟩
  next => cases h

theorem opens_iff {t : FileTree} {path : String} {mtime : Int} {content : Text.Bytes} :
    t.Opens path mtime content ↔
      ∃ q n, t.find (.ofString path) = .ok (q, n) ∧ n.mtime = mtime ∧ n.content? = some content := by
  constructor
  · intro h
    obtain ⟨q, n, hfind, hmtime⟩ := stat_eq_ok h.stat
    have hread := h.read
    unfold read at hread
    rw [hfind] at hread
    cases n with
    | directory => cases hread
    | bytes c m => exact ⟨q, _, hfind, hmtime, congrArg some (Except.ok.inj hread)⟩
    | store c m => exact ⟨q, _, hfind, hmtime, congrArg some (Except.ok.inj hread)⟩
  · rintro ⟨q, n, hfind, rfl, hcontent⟩
    refine ⟨by rw [stat, hfind], ?_⟩
    rw [read, hfind]
    cases n with
    | directory => cases hcontent
    | bytes c m => exact congrArg Except.ok (Option.some.inj hcontent)
    | store c m => exact congrArg Except.ok (Option.some.inj hcontent)

/-- A file that can be read has a time. -/
theorem opens_of_read {t : FileTree} {path : String} {content : Text.Bytes}
    (h : t.read path = .ok content) : ∃ mtime, t.Opens path mtime content := by
  cases hfind : t.find (.ofString path) with
  | error fault =>
    rw [read, hfind] at h
    cases h
  | ok found => exact ⟨found.2.mtime, by rw [stat, hfind], h⟩

/-! ## Directories that stay -/

section
variable {t t' : FileTree} (hstays : ∀ p, t.node? p = some .directory → t'.node? p = some .directory)
include hstays

theorem follow_of_stays {q r : Place} {segment : String} (h : t.follow q segment = .ok r) :
    t'.follow q segment = .ok r := by
  unfold follow at h ⊢
  split at h
  next hdir =>
    rw [hstays q hdir]
    exact h
  next => cases h
  next => cases h

variable (hlinks : t'.links = t.links)
include hlinks

theorem stretch_of_stays {last : Bool} {segments : List String} {q : Place} {r : Stretch}
    (h : t.stretch last q segments = .ok r) : t'.stretch last q segments = .ok r := by
  induction segments generalizing q with
  | nil => exact h
  | cons segment rest ih =>
    unfold stretch at h ⊢
    cases hnext : t.follow q segment with
    | error fault =>
      rw [hnext] at h
      cases h
    | ok next =>
      rw [hnext] at h
      rw [follow_of_stays hstays hnext, hlinks]
      dsimp only at h ⊢
      cases hlink : t.links.lookup next with
      | none =>
        rw [hlink] at h
        exact ih h
      | some target =>
        rw [hlink] at h
        exact h

/-- A path that leads anywhere leads there as long as no directory goes away. -/
theorem locate_of_stays (hcwd : t'.cwd = t.cwd) {p : Path} {q : Place} (h : t.locate p = .ok q) :
    t'.locate p = .ok q := by
  have hreach (budget : Nat) (place : Place) (segments : List String)
      (h : t.reach true budget place segments = .ok q) : t'.reach true budget place segments = .ok q := by
    induction budget generalizing place segments with
    | zero =>
      unfold reach at h ⊢
      cases hs : t.stretch true place segments with
      | error fault =>
        rw [hs] at h
        cases h
      | ok r =>
        rw [hs] at h
        rw [stretch_of_stays hstays hlinks hs]
        exact h
    | succ budget ih =>
      unfold reach at h ⊢
      cases hs : t.stretch true place segments with
      | error fault =>
        rw [hs] at h
        cases h
      | ok r =>
        rw [hs] at h
        rw [stretch_of_stays hstays hlinks hs]
        cases r with
        | arrived place => exact h
        | link place target rest => exact ih _ _ h
  unfold locate at h ⊢
  rw [hcwd]
  exact hreach _ _ _ h

end

/-! ## Changes -/

/-- The second tree came from the first by a change of the file at the place, which has the time
now. -/
structure Changes (place : Place) (mtime : Int) (t t' : FileTree) : Prop where
  cwd : t'.cwd = t.cwd
  links : t'.links = t.links
  /-- No directory becomes a file. -/
  file : t.node? place ≠ some .directory
  changed : ∃ n content, t'.node? place = some n ∧ n.mtime = mtime ∧ n.content? = some content
  others : ∀ p n, p ≠ place → t.node? p = some n → t'.node? p = some n

variable {t t' : FileTree} {place : Place} {mtime : Int}

theorem Changes.directory (h : Changes place mtime t t') (p : Place)
    (hp : t.node? p = some .directory) : t'.node? p = some .directory := by
  refine h.others p .directory ?_ hp
  rintro rfl
  exact h.file hp

theorem Changes.locate (h : Changes place mtime t t') {p : Path} {q : Place} (hq : t.locate p = .ok q) :
    t'.locate p = .ok q :=
  locate_of_stays h.directory h.links h.cwd hq

/-- **A change leaves every other file as it was, and the changed file can be read.** -/
theorem Changes.opens (h : Changes place mtime t t') {path : String} {now : Int}
    {content : Text.Bytes} (hopens : t.Opens path now content) :
    (t.placeOf path ≠ some place ∧ t'.Opens path now content) ∨
      (t.placeOf path = some place ∧ ∃ content', t'.Opens path mtime content') := by
  obtain ⟨q, n, hfind, hmtime, hcontent⟩ := opens_iff.1 hopens
  obtain ⟨hlocate, hnode⟩ := find_eq_ok.1 hfind
  have hlocate' := h.locate hlocate
  rw [placeOf_eq_some.2 hlocate]
  by_cases heq : q = place
  · subst heq
    obtain ⟨n', content', hnode', hmtime', hcontent'⟩ := h.changed
    exact .inr ⟨rfl, content', opens_iff.2 ⟨q, n', find_eq_ok.2 ⟨hlocate', hnode'⟩, hmtime', hcontent'⟩⟩
  · exact .inl ⟨by simpa using heq,
      opens_iff.2 ⟨q, n, find_eq_ok.2 ⟨hlocate', h.others _ _ heq hnode⟩, hmtime, hcontent⟩⟩

/-- The file at the place was changed, or nothing was. -/
def MayChange (place : Place) (mtime : Int) (t t' : FileTree) : Prop :=
  t' = t ∨ Changes place mtime t t'

theorem MayChange.placeOf (h : MayChange place mtime t t') {path : String} {q : Place}
    (hq : t.placeOf path = some q) : t'.placeOf path = some q := by
  rcases h with rfl | h
  · exact hq
  · exact placeOf_eq_some.2 (h.locate (placeOf_eq_some.1 hq))

/-- A file still reads as it did, unless it is the one that was changed. -/
theorem MayChange.opens (h : MayChange place mtime t t') {path : String} {now : Int}
    {content : Text.Bytes} (hopens : t.Opens path now content) :
    t'.Opens path now content ∨ (t.placeOf path = some place ∧ ∃ content', t'.Opens path mtime content') := by
  rcases h with rfl | h
  · exact .inl hopens
  · exact (h.opens hopens).imp_left And.right

theorem changes_put {n : Node} {content : Text.Bytes} (hgrows : Grows t t') (hroot : place ≠ [])
    (hfile : t'.node? place ≠ some .directory) (hmtime : n.mtime = mtime)
    (hcontent : n.content? = some content) : Changes place mtime t (t'.put place n) where
  cwd := hgrows.cwd
  links := hgrows.links
  file h := hfile (hgrows.nodes _ _ h)
  changed := ⟨n, content, node?_put_self hroot n, hmtime, hcontent⟩
  others p m hp hm := by
    rw [node?_put_of_ne hp]
    exact hgrows.nodes p m hm

theorem ne_root_of_file (h : t.node? place ≠ some .directory) : place ≠ [] := by
  rintro rfl
  exact h (node?_root t)

/-- The file that the path leads to was changed, or nothing was. -/
def ChangesAt (path : String) (mtime : Int) (t t' : FileTree) : Prop :=
  ∃ place, t'.placeOf path = some place ∧ MayChange place mtime t t'

/-- What is put where a path leads changes the file there. -/
theorem changesAt_put {u : FileTree} {path : String} {n : Node} {content : Text.Bytes} (hgrows : Grows t u)
    (hlocate : u.locate (.ofString path) = .ok place) (hfile : u.node? place ≠ some .directory)
    (hmtime : n.mtime = mtime) (hcontent : n.content? = some content) :
    ChangesAt path mtime t (u.put place n) := by
  have hroot := ne_root_of_file hfile
  have hchanges : Changes place mtime u (u.put place n) := changes_put (.refl u) hroot hfile hmtime hcontent
  exact ⟨place, placeOf_eq_some.2 (hchanges.locate hlocate), .inr (changes_put hgrows hroot hfile hmtime hcontent)⟩

/-- Writing a file changes it, and makes at most the directories above it. -/
theorem write_changes {path : String} {content : Text.Bytes}
    (h : t.write path content mtime = .ok t') : ChangesAt path mtime t t' := by
  unfold write at h
  dsimp only at h
  cases hmake : t.makeDirectories (Path.ofString path).parent with
  | error e =>
    rw [hmake] at h
    cases h
  | ok u =>
    have hgrows := makeDirectoriesFrom_grows _ _ hmake
    rw [hmake] at h
    simp only [bind, Except.bind] at h
    split at h
    · cases h
    next place hplace =>
      split at h
      · cases h
      next hfile =>
        obtain rfl := Except.ok.inj h
        exact changesAt_put hgrows hplace hfile rfl rfl

/-- Touching a file changes it; touching a directory does nothing. -/
theorem touch_changes {path : String} (h : t.touch path mtime = .ok t') : ChangesAt path mtime t t' := by
  unfold touch at h
  split at h
  next place content m hfind =>
    obtain ⟨hlocate, hnode⟩ := find_eq_ok.1 hfind
    obtain rfl := Except.ok.inj h
    exact changesAt_put (.refl t) hlocate (by simp [hnode]) rfl rfl
  next place contents m hfind =>
    obtain ⟨hlocate, hnode⟩ := find_eq_ok.1 hfind
    obtain rfl := Except.ok.inj h
    exact changesAt_put (.refl t) hlocate (by simp [hnode]) rfl rfl
  next place hfind =>
    obtain rfl := Except.ok.inj h
    exact ⟨place, placeOf_eq_some.2 (find_eq_ok.1 hfind).1, .inl rfl⟩
  next => cases h

end FileTree

end Crossref
