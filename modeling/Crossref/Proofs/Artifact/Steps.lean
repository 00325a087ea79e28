/-
Steps of reading one after the other: what follows a step that succeeds, and what
must have succeeded for a step to come to its end.
-/
import Crossref.Artifact.Reader

namespace Crossref.Artifact.ReadM

variable {α β : Type} {d d' : Draft}

theorem bind_ok {x : ReadM α} {f : α → ReadM β} {a : α} (h : x d = (.ok a, d')) : (x >>= f) d = f a d' := by
  change (ExceptT.bind x f : ExceptT Fault (StateM Draft) β) d = _
  unfold ExceptT.bind ExceptT.mk ExceptT.bindCont
  simp only [Bind.bind, StateT.bind, h]

theorem bind_error {x : ReadM α} {f : α → ReadM β} {e : Fault} (h : x d = (.error e, d')) :
    (x >>= f) d = (.error e, d') := by
  change (ExceptT.bind x f : ExceptT Fault (StateM Draft) β) d = _
  unfold ExceptT.bind ExceptT.mk ExceptT.bindCont
  simp only [Bind.bind, StateT.bind, h]
  rfl

/-- Where a sequence succeeds both of its steps do. -/
theorem bind_eq_ok {x : ReadM α} {f : α → ReadM β} {b : β} (h : (x >>= f) d = (.ok b, d')) :
    ∃ a d₁, x d = (.ok a, d₁) ∧ f a d₁ = (.ok b, d') := by
  rcases hx : x d with ⟨e | a, d₁⟩
  · rw [bind_error hx] at h
    cases h
  · exact ⟨a, d₁, rfl, (bind_ok hx).symm.trans h⟩

theorem get_bind (f : Draft → ReadM β) : (get >>= f) d = f d d := rfl

theorem modify_apply (g : Draft → Draft) : (modify g : ReadM PUnit) d = (.ok (), g d) := rfl

theorem forM_cons {ρ : Type} (f : ρ → ReadM PUnit) (r : ρ) (rs : List ρ) :
    (r :: rs).forM f = (f r >>= fun _ => rs.forM f) := rfl

theorem number_eq_ok {text : List Char} {n : Int} (h : number text d = (.ok n, d')) :
    Text.readInt text = .ok n ∧ d' = d := by
  unfold number at h
  cases hn : Text.readInt text with
  | ok m =>
    rw [hn] at h
    cases h
    exact ⟨rfl, rfl⟩
  | error e =>
    rw [hn] at h
    cases h

/-- Looking for a dependency changes nothing. -/
theorem dependencyAt_eq_ok {text : List Char} {r : Dependency} (h : dependencyAt text d = (.ok r, d')) :
    d' = d := by
  obtain ⟨index, d₁, hnumber, hfound⟩ := bind_eq_ok h
  obtain ⟨-, rfl⟩ := number_eq_ok hnumber
  rw [get_bind] at hfound
  cases hr : (if 1 ≤ index then d₁.dependencies[(index - 1).toNat]? else none) with
  | some r' =>
    rw [hr] at hfound
    exact (congrArg Prod.snd hfound).symm
  | none =>
    rw [hr] at hfound
    cases hfound

/-- A section is entered whose file is written after its index. -/
theorem sectionRecord_eq_ok {body : List Char} (h : sectionRecord body d = (.ok (), d')) :
    ∃ index file, Text.words body = [index, file] ∧
      d' = { d with sectionFile := some (slashed (String.ofList file)), entity := none } := by
  unfold sectionRecord at h
  rcases hwords : Text.words body with _ | ⟨index, _ | ⟨file, _ | ⟨word, words⟩⟩⟩
  all_goals rw [hwords] at h
  case cons.cons.nil =>
    obtain ⟨r, d₁, hfound, hrest⟩ := bind_eq_ok h
    obtain rfl := dependencyAt_eq_ok hfound
    by_cases hpath : r.path = slashed (String.ofList file)
    · rw [if_neg (not_not_intro hpath)] at hrest
      exact ⟨index, file, rfl, (congrArg Prod.snd hrest).symm⟩
    · rw [if_pos hpath] at hrest
      cases hrest
  all_goals cases h

/-- An entity is declared in the file of the section, opened, and given what follows on its line. -/
theorem entityLine_eq_ok {s : List Char} (h : entityLine s d = (.ok (), d')) :
    ∃ file head line column, d.sectionFile = some file ∧ EntityHead.ofText? s = some head ∧
      Text.readInt head.line = .ok line ∧ Text.readInt head.column = .ok column ∧
      let key : EntityKey := ⟨String.ofList head.name, file, line, column⟩
      (Text.words head.rest).forM mention
        { d.declare ⟨key, entityKind head.tag, head.libraryLevel⟩ with entity := some ⟨key, file, 0⟩ } =
        (.ok (), d') := by
  unfold entityLine at h
  rw [get_bind] at h
  cases hfile : d.sectionFile with
  | none =>
    rw [hfile] at h
    cases h
  | some file =>
    cases hhead : EntityHead.ofText? s with
    | none =>
      rw [hfile, hhead] at h
      cases h
    | some head =>
      rw [hfile, hhead] at h
      obtain ⟨line, d₁, hline, h₁⟩ := bind_eq_ok h
      obtain ⟨hreadLine, rfl⟩ := number_eq_ok hline
      obtain ⟨column, d₂, hcolumn, h₂⟩ := bind_eq_ok h₁
      obtain ⟨hreadColumn, rfl⟩ := number_eq_ok hcolumn
      exact ⟨file, head, line, column, rfl, rfl, hreadLine, hreadColumn, h₂⟩

theorem continuationLine_eq_ok {s : List Char} (h : continuationLine s d = (.ok (), d')) :
    d.entity.isSome = true ∧ (Text.words s).forM mention d = (.ok (), d') := by
  unfold continuationLine at h
  rw [get_bind] at h
  cases hopen : d.entity with
  | none =>
    rw [hopen] at h
    cases h
  | some e =>
    rw [hopen] at h
    exact ⟨rfl, h⟩

/-- A line is an entity line, continues one, or is a record with a letter and a blank before its text. -/
theorem record_eq_ok {tag : Char} {rest : List Char} (h : record (tag :: rest) d = (.ok (), d')) :
    (Text.isDigitLike tag = true ∧ entityLine (tag :: rest) d = (.ok (), d')) ∨
      (tag = '.' ∧ continuationLine rest d = (.ok (), d')) ∨
      ∃ c body, tag ∈ ['V', 'U', 'D', 'X', 'A', 'W'] ∧ rest = ' ' :: c :: body ∧
        headerRecord tag (Text.trim (c :: body)) d = (.ok (), d') := by
  rw [record.eq_def] at h
  dsimp only at h
  rw [get_bind] at h
  split at h
  · cases h
  · split at h
    next hdigit => exact .inl ⟨hdigit, h⟩
    · split at h
      next hdot => exact .inr (.inl ⟨hdot, h⟩)
      · split at h
        · cases h
        next hknown =>
          split at h
          next c body =>
            rw [Bool.not_eq_true', Bool.not_eq_false, List.contains_iff_mem] at hknown
            exact .inr (.inr ⟨c, body, hknown, rfl, h⟩)
          · cases h

end Crossref.Artifact.ReadM
