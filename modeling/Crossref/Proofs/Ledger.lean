/-
What an index says when every id is read as the name it stands for. A ledger holds
facts about artifacts, dependencies, entities, references and parameters, with
files by path and entities by key; it does not say whether a link is made or still
awaited. The operations of an update act on a ledger as they act on a store, so
what an update does to the facts can be followed here without ids.
-/
import Mathlib.Data.List.Nodup
import Crossref.Proofs.Update.Current

namespace Crossref

structure ArtifactFact where
  path : String
  unitName : String
  mtime : Int
  checksum : String
  deriving DecidableEq, Repr

structure DependencyFact where
  artifact : String
  path : String
  stamp : String
  checksum : String
  deriving DecidableEq, Repr

structure EntityFact where
  key : EntityKey
  kind : String
  deriving DecidableEq, Repr

/-- An artifact owns the declaration of an entity. -/
structure Claim where
  key : EntityKey
  artifact : String
  libraryLevel : Bool
  deriving DecidableEq, Repr

structure ReferenceFact where
  target : EntityKey
  artifact : String
  location : Location
  kind : String
  scope : Option EntityKey
  deriving DecidableEq, Repr

structure ParameterFact where
  owner : EntityKey
  ordinal : Int
  key : EntityKey
  mode : String
  artifact : String
  deriving DecidableEq, Repr

structure Ledger where
  artifacts : List ArtifactFact := []
  dependencies : List DependencyFact := []
  entities : List EntityFact := []
  claims : List Claim := []
  references : List ReferenceFact := []
  parameters : List ParameterFact := []
  deriving DecidableEq, Repr

/-! ## What a unit says -/

def Dependency.fact (d : Dependency) (artifact : String) : DependencyFact :=
  ⟨artifact, d.path, d.stamp, d.checksum⟩

def Declaration.claim (d : Declaration) (artifact : String) : Claim :=
  ⟨d.key, artifact, d.libraryLevel⟩

def Reference.fact (r : Reference) (artifact : String) : ReferenceFact :=
  ⟨r.target, artifact, r.location, r.kind.text, r.scope⟩

def Parameter.fact (p : Parameter) (artifact : String) : ParameterFact :=
  ⟨p.owner, p.ordinal, p.key, p.mode.text, artifact⟩

namespace CompilationUnit

def dependencyFacts (u : CompilationUnit) (path : String) : List DependencyFact :=
  u.dependencies.map (·.fact path)

def claims (u : CompilationUnit) (path : String) : List Claim :=
  u.owned.map (·.claim path)

/-- The unit owns the declaration of the key. -/
def Owns (u : CompilationUnit) (k : EntityKey) : Prop :=
  ∃ d ∈ u.owned, d.key = k

instance (u : CompilationUnit) (k : EntityKey) : Decidable (u.Owns k) :=
  inferInstanceAs (Decidable (∃ d ∈ u.owned, d.key = k))

theorem mem_claims_key {u : CompilationUnit} (path : String) {k : EntityKey} :
    (∃ f ∈ u.claims path, f.key = k) ↔ u.Owns k := by
  constructor
  · intro h
    obtain ⟨f, hf, rfl⟩ := h
    obtain ⟨d, hd, rfl⟩ := List.mem_map.1 hf
    exact ⟨d, hd, rfl⟩
  · intro h
    obtain ⟨d, hd, rfl⟩ := h
    exact ⟨_, List.mem_map_of_mem hd, rfl⟩

def referenceFacts (u : CompilationUnit) (path : String) : List ReferenceFact :=
  u.references.map (·.fact path)

/-- The parameters of the subprograms that the unit owns. -/
def ownParameters (u : CompilationUnit) : List Parameter :=
  u.parameters.filter fun p => u.owned.any (·.key = p.owner)

def parameterFacts (u : CompilationUnit) (path : String) : List ParameterFact :=
  u.ownParameters.map (·.fact path)

end CompilationUnit

/-! ## Slots

Each fact of some kinds has a slot, and a new fact takes the place of the one in its slot. -/

section
variable {α κ : Type} [DecidableEq κ] (slot : α → κ)

def putLast (l : List α) (new : α) : List α :=
  l.filter (fun a => slot a ≠ slot new) ++ [new]

def putAll (l news : List α) : List α :=
  news.foldl (putLast slot) l

theorem putAll_nil (l : List α) : putAll slot l [] = l := rfl

theorem putAll_cons (l : List α) (a : α) (news : List α) :
    putAll slot l (a :: news) = putAll slot (putLast slot l a) news := rfl

theorem putAll_append (l news news' : List α) :
    putAll slot l (news ++ news') = putAll slot (putAll slot l news) news' :=
  List.foldl_append

/-- The facts that were there stay unless their slot is taken, and stand before the new ones. -/
theorem putAll_eq : ∀ (l news : List α),
    putAll slot l news = l.filter (fun a => slot a ∉ news.map slot) ++ putAll slot [] news
  | l, [] => by simp [putAll_nil]
  | l, a :: news => by
    rw [putAll_cons, putAll_cons, putAll_eq _ news, putAll_eq (putLast slot [] a) news]
    simp only [putLast, List.filter_append, List.filter_filter, List.append_assoc, List.filter_nil,
      List.nil_append, List.map_cons, List.mem_cons, not_or]
    congr 1
    refine List.filter_congr fun b _ => ?_
    simp [Bool.and_comm]

theorem putAll_snoc (l news : List α) (a : α) :
    putAll slot l (news ++ [a]) = putLast slot (putAll slot l news) a :=
  putAll_append slot l news [a]

theorem mem_putLast {a b : α} {l : List α} :
    a ∈ putLast slot l b ↔ (a ∈ l ∧ slot a ≠ slot b) ∨ a = b := by
  simp [putLast]

/-- A fact stands if it is the last new one in its slot, or an old one whose slot was not taken. -/
theorem mem_putAll_iff {a : α} {l news : List α} :
    a ∈ putAll slot l news ↔
      IsLast (fun b => slot b = slot a) news a ∨ (a ∈ l ∧ ∀ b ∈ news, slot b ≠ slot a) := by
  induction news using List.reverseRecOn with
  | nil => simp [putAll_nil, not_isLast_nil]
  | append_singleton news b ih =>
    rw [putAll_snoc, mem_putLast, ih, isLast_snoc]
    simp only [List.mem_append, List.mem_singleton]
    constructor
    · intro hor
      rcases hor with ⟨h | ⟨ha, hnews⟩, hb⟩ | rfl
      · exact .inl (.inl ⟨h, fun heq => hb heq.symm⟩)
      · refine .inr ⟨ha, ?_⟩
        intro c hc
        rcases hc with hc | rfl
        · exact hnews c hc
        · exact fun heq => hb heq.symm
      · exact .inl (.inr ⟨rfl, rfl⟩)
    · intro hor
      rcases hor with (⟨h, hb⟩ | ⟨-, rfl⟩) | ⟨ha, hnews⟩
      · exact .inl ⟨.inl h, fun heq => hb heq.symm⟩
      · exact .inr rfl
      · exact .inl ⟨.inr ⟨ha, fun c hc => hnews c (.inl hc)⟩, fun heq => hnews b (.inr rfl) heq.symm⟩

theorem mem_putAll {a : α} {l news : List α} (h : a ∈ putAll slot l news) : a ∈ l ∨ a ∈ news := by
  rcases (mem_putAll_iff slot).1 h with h | h
  · exact .inr h.mem
  · exact .inl h.1

/-- A slot that was taken, or that a new fact takes, stays taken. -/
theorem exists_mem_putAll {l news : List α} {k : κ}
    (h : (∃ a ∈ l, slot a = k) ∨ ∃ a ∈ news, slot a = k) : ∃ a ∈ putAll slot l news, slot a = k := by
  by_cases hnew : ∃ a ∈ news, slot a = k
  · obtain ⟨a, ha⟩ := exists_isLast hnew
    obtain rfl := ha.1
    exact ⟨a, (mem_putAll_iff slot).2 (.inl ha), rfl⟩
  · obtain ⟨a, ha, rfl⟩ := h.resolve_right hnew
    exact ⟨a, (mem_putAll_iff slot).2 (.inr ⟨ha, fun b hb heq => hnew ⟨b, hb, heq⟩⟩), rfl⟩

theorem nodup_putAll {l news : List α} (h : (l.map slot).Nodup) :
    ((putAll slot l news).map slot).Nodup := by
  induction news generalizing l with
  | nil => exact h
  | cons a news ih =>
    rw [putAll_cons]
    refine ih ?_
    simp only [putLast, List.map_append, List.map_cons, List.map_nil]
    refine List.nodup_append.2 ⟨h.sublist (List.filter_sublist.map _), by simp, ?_⟩
    simp only [List.mem_map, List.mem_filter, decide_eq_true_eq, List.mem_singleton]
    intro _ hmem _ heq
    obtain ⟨b, ⟨-, hb⟩, rfl⟩ := hmem
    subst heq
    exact hb

/-- Replacing the element in a slot, or adding one if the slot is free, keeps the slots distinct. -/
theorem nodup_replace {l : List α} {new : α} {f : α → α}
    (hf : ∀ a, slot a = slot new → slot (f a) = slot new) (h : (l.map slot).Nodup) :
    ((if l.any (fun a => slot a = slot new) then l.map fun a => if slot a = slot new then f a else a
      else l ++ [new]).map slot).Nodup := by
  split
  · rw [List.map_map]
    refine (List.map_congr_left fun a _ => ?_).symm ▸ h
    simp only [Function.comp_apply]
    split
    next ha => exact (hf a ha).trans ha.symm
    next => rfl
  next hfree =>
    rw [List.map_append]
    refine List.nodup_append.2 ⟨h, by simp, ?_⟩
    simp only [List.any_eq_true, decide_eq_true_eq, not_exists, not_and] at hfree
    simp only [List.mem_map, List.mem_singleton]
    intro _ hmem _ hnew heq
    obtain ⟨a, ha, rfl⟩ := hmem
    obtain ⟨_, rfl, rfl⟩ := hnew
    exact hfree a ha heq

end

/-! ## Operations -/

namespace Ledger

/-- What an artifact said goes; the entities stay. -/
def purge (L : Ledger) (path : String) : Ledger :=
  { L with
    artifacts := L.artifacts.filter (·.path ≠ path)
    dependencies := L.dependencies.filter (·.artifact ≠ path)
    claims := L.claims.filter (·.artifact ≠ path)
    references := L.references.filter (·.artifact ≠ path)
    parameters := L.parameters.filter (·.artifact ≠ path) }

def touch (L : Ledger) (path : String) (mtime : Int) : Ledger :=
  { L with artifacts := L.artifacts.map fun a => if a.path = path then { a with mtime } else a }

def putEntity (L : Ledger) (key : EntityKey) (kind : String) : Ledger :=
  { L with
    entities :=
      if L.entities.any (·.key = key) then
        L.entities.map fun e => if e.key = key then { e with kind } else e
      else L.entities ++ [⟨key, kind⟩] }

def register (L : Ledger) (d : Declaration) : Ledger :=
  L.putEntity d.key d.kind

def recordArtifact (L : Ledger) (new : ArtifactFact) : Ledger :=
  { L with
    artifacts :=
      if L.artifacts.any (·.path = new.path) then
        L.artifacts.map fun a => if a.path = new.path then new else a
      else L.artifacts ++ [new] }

def replaceDependencies (L : Ledger) (path : String) (new : List DependencyFact) : Ledger :=
  { L with
    dependencies :=
      putAll (fun d => (d.artifact, d.path)) (L.dependencies.filter (·.artifact ≠ path)) new }

def putClaims (L : Ledger) (new : List Claim) : Ledger :=
  { L with claims := putAll (·.key) L.claims new }

def addReferences (L : Ledger) (new : List ReferenceFact) : Ledger :=
  { L with references := L.references ++ new }

def putParameters (L : Ledger) (new : List ParameterFact) : Ledger :=
  { L with parameters := putAll (fun p => (p.owner, p.ordinal)) L.parameters new }

/-- Writes everything that a unit says. -/
def write (L : Ledger) (s : StaleArtifact) (u : CompilationUnit) : Ledger :=
  let path := s.artifact.path
  ((((L.replaceDependencies path (u.dependencyFacts path)).putClaims (u.claims path)).addReferences
    (u.referenceFacts path)).putParameters (u.parameterFacts path)).recordArtifact
      ⟨path, u.unitName, s.mtime, u.checksum⟩

def isClaimed (L : Ledger) (key : EntityKey) : Bool :=
  L.claims.any (·.key = key)

/-- Entities that nobody claims go, with their parameters. -/
def settle (L : Ledger) : Ledger :=
  { L with
    entities := L.entities.filter fun e => L.isClaimed e.key
    parameters := L.parameters.filter fun p => L.isClaimed p.owner }

end Ledger

/-- Merges a batch. -/
def Ledger.merge (L : Ledger) (b : ReadBatch) (touched : List (String × Int)) : Ledger :=
  let purged := b.attempted.foldl (fun L s => L.purge s.artifact.path) L
  let timed := touched.foldl (fun L t => L.touch t.1 t.2) purged
  let registered := (b.units.flatMap (·.owned)).foldl Ledger.register timed
  (b.parsed.foldl (fun L p => L.write p.1 p.2) registered).settle

/-- A ledger that merging the batches one after the other may lead to. -/
inductive Ledger.Merges : List ReadBatch → Ledger → Prop
  | nil : Merges [] {}
  | snoc {batches L b touched} (h : Merges batches L) : Merges (batches ++ [b]) (L.merge b touched)

end Crossref
