/-
Text that is written as words with blanks between them, and what cutting it gives
back. Blanks in a line are those that do not break lines.
-/
import Crossref.Text.Blank
import Crossref.Text.Line

namespace Crossref.Text

/-! ## Blanks -/

/-- A blank that may stand in a line. -/
def isGap (c : Char) : Bool :=
  isBlank c && !isLineBreak c

theorem isBlank_of_isGap {c : Char} (h : isGap c = true) : isBlank c = true :=
  (Bool.and_eq_true_iff.1 h).1

theorem isLineBreak_of_isGap {c : Char} (h : isGap c = true) : isLineBreak c = false := by
  simpa using (Bool.and_eq_true_iff.1 h).2

/-- Every line break is a blank. -/
theorem isLineBreak_of_not_blank {c : Char} (h : isBlank c = false) : isLineBreak c = false := by
  simp only [isBlank, isLineBreak, inRanges, blankRanges, lineBreakRanges, List.any_cons, List.any_nil,
    Bool.or_false, Bool.or_eq_false_iff, Bool.and_eq_false_iff, decide_eq_false_iff_not] at h ⊢
  omega

theorem dropWhile_append_of_all {α : Type} {p : α → Bool} {l r : List α} (h : ∀ a ∈ l, p a = true) :
    (l ++ r).dropWhile p = r.dropWhile p := by
  induction l with
  | nil => rfl
  | cons a l ih =>
    rw [List.cons_append, List.dropWhile_cons, if_pos (h a (by simp))]
    exact ih fun b hb => h b (List.mem_cons_of_mem _ hb)

/-- A run of elements with a property ends where the property ends. -/
theorem span_append {α : Type} {p : α → Bool} {l r : List α} (h : ∀ a ∈ l, p a = true)
    (hr : ∀ a ∈ r.head?, p a = false) :
    (l ++ r).takeWhile p = l ∧ (l ++ r).dropWhile p = r := by
  induction l with
  | nil =>
    cases r with
    | nil => exact ⟨rfl, rfl⟩
    | cons a r => simp [hr a (by simp)]
  | cons a l ih =>
    have ih := ih fun b hb => h b (List.mem_cons_of_mem _ hb)
    simp [h a (by simp), ih]

/-! ## Trimming -/

theorem trimEnd_of_blank {s : List Char} (h : ∀ c ∈ s, isBlank c = true) : trimEnd s = [] := by
  have hrev : ∀ c ∈ s.reverse, isBlank c = true := fun c hc => h c (List.mem_reverse.1 hc)
  rw [trimEnd, ← List.append_nil s.reverse, dropWhile_append_of_all hrev]
  rfl

/-- Only blanks are trimmed, and they go up to the last character that is not one. -/
theorem trimEnd_append_solid {c : Char} (hc : isBlank c = false) (s r : List Char) :
    trimEnd (s ++ c :: r) = s ++ c :: trimEnd r := by
  have hfirst : (r.reverse ++ c :: s.reverse).dropWhile isBlank =
      r.reverse.dropWhile isBlank ++ c :: s.reverse := by
    induction r.reverse with
    | nil => rw [List.nil_append, List.dropWhile_cons, if_neg (by simp [hc]), List.dropWhile_nil, List.nil_append]
    | cons d l ih =>
      rw [List.cons_append, List.dropWhile_cons, List.dropWhile_cons]
      split
      · exact ih
      · rfl
  unfold trimEnd
  rw [List.reverse_append, List.reverse_cons, List.append_assoc, List.singleton_append, hfirst]
  simp

section
variable {s : List Char} (h : ∃ c ∈ s, isBlank c = false)
include h

theorem trimEnd_append (p : List Char) : trimEnd (p ++ s) = p ++ trimEnd s := by
  obtain ⟨c, hc, hsolid⟩ := h
  obtain ⟨before, after, rfl⟩ := List.append_of_mem hc
  rw [trimEnd_append_solid hsolid, ← List.append_assoc, trimEnd_append_solid hsolid, List.append_assoc]

theorem trimEnd_ne_nil : trimEnd s ≠ [] := by
  obtain ⟨c, hc, hsolid⟩ := h
  obtain ⟨before, after, rfl⟩ := List.append_of_mem hc
  rw [trimEnd_append_solid hsolid]
  simp

end

/-- Trimming takes blanks away at the end. -/
theorem exists_trimEnd (s : List Char) : ∃ blanks, (∀ c ∈ blanks, isBlank c = true) ∧ s = trimEnd s ++ blanks := by
  refine ⟨(s.reverse.takeWhile isBlank).reverse, fun c hc => ?_, ?_⟩
  · exact List.all_eq_true.1 List.all_takeWhile c (List.mem_reverse.1 hc)
  · rw [trimEnd, ← List.reverse_append, List.takeWhile_append_dropWhile, List.reverse_reverse]

theorem exists_trimStart (s : List Char) :
    ∃ blanks, (∀ c ∈ blanks, isBlank c = true) ∧ s = blanks ++ trimStart s :=
  ⟨s.takeWhile isBlank, fun c hc => List.all_eq_true.1 List.all_takeWhile c hc, (List.takeWhile_append_dropWhile).symm⟩

/-! ## Cutting -/

theorem words_cons_blank {c : Char} (hc : isBlank c = true) (s : List Char) : words (c :: s) = words s := by
  cases s with
  | nil => simp [words, hc]
  | cons d r => rw [words, if_pos hc]

theorem words_append_left {blanks : List Char} (h : ∀ c ∈ blanks, isBlank c = true) (s : List Char) :
    words (blanks ++ s) = words s := by
  induction blanks with
  | nil => rfl
  | cons c blanks ih =>
    rw [List.cons_append, words_cons_blank (h c (by simp))]
    exact ih fun d hd => h d (List.mem_cons_of_mem _ hd)

theorem words_of_blank {s : List Char} (h : ∀ c ∈ s, isBlank c = true) : words s = [] := by
  rw [← List.append_nil s, words_append_left h]
  rfl

theorem words_append_right {blanks : List Char} (h : ∀ c ∈ blanks, isBlank c = true) :
    ∀ s : List Char, words (s ++ blanks) = words s
  | [] => words_of_blank h
  | [c] => by
    cases blanks with
    | nil => rfl
    | cons b blanks =>
      have hb := h b (by simp)
      rw [List.singleton_append, words.eq_3, if_pos hb, words_of_blank h, words]
  | c :: d :: r => by
    have ih := words_append_right h (d :: r)
    rw [List.cons_append] at ih ⊢
    rw [List.cons_append, words, words, ih]

theorem words_trimEnd (s : List Char) : words (trimEnd s) = words s := by
  obtain ⟨blanks, hblanks, hs⟩ := exists_trimEnd s
  conv => rhs; rw [hs]
  exact (words_append_right hblanks _).symm

theorem words_trim (s : List Char) : words (trim s) = words s := by
  obtain ⟨blanks, hblanks, hs⟩ := exists_trimStart s
  rw [trim, words_trimEnd]
  conv => rhs; rw [hs]
  exact (words_append_left hblanks _).symm

/-! ## Words -/

/-- A run of characters that are not blank, with at least one of them. -/
structure Word where
  text : List Char
  nonempty : text ≠ []
  solid : ∀ c ∈ text, isBlank c = false
  deriving DecidableEq

/-- A word is not trimmed. -/
theorem trimEnd_append_word (p : List Char) (w : Word) (s : List Char) :
    trimEnd (p ++ w.text ++ s) = p ++ w.text ++ trimEnd s := by
  obtain ⟨init, last, hw⟩ := (List.eq_nil_or_concat w.text).resolve_left w.nonempty
  have hlast : isBlank last = false := w.solid last (by simp [hw])
  have htext (r : List Char) : p ++ w.text ++ r = (p ++ init) ++ last :: r := by simp [hw]
  rw [htext, htext, trimEnd_append_solid hlast]

theorem words_append_word (w : Word) {r : List Char} (hr : ∀ c ∈ r.head?, isBlank c = true) :
    words (w.text ++ r) = w.text :: words r := by
  obtain ⟨s, hne, hsolid⟩ := w
  dsimp only
  induction s with
  | nil => exact absurd rfl hne
  | cons c s ih =>
    have hc : ¬isBlank c = true := by simp [hsolid c (by simp)]
    cases s with
    | nil =>
      cases r with
      | nil => simp [words, hc]
      | cons b r =>
        rw [List.singleton_append, words, if_neg hc, if_pos (hr b rfl)]
    | cons d s =>
      have hd : ¬isBlank d = true := by simp [hsolid d (by simp)]
      rw [List.cons_append, List.cons_append, words, if_neg hc, if_neg hd, ← List.cons_append,
        ih (by simp) fun e he => hsolid e (List.mem_cons_of_mem _ he)]

/-- The text holds the words, with gaps between them and perhaps before and after. -/
inductive Spaced : List Word → List Char → Prop
  | nil {gap : List Char} (hgap : ∀ c ∈ gap, isGap c = true) : Spaced [] gap
  | cons {gap : List Char} {w : Word} {ws : List Word} {r : List Char} (hgap : ∀ c ∈ gap, isGap c = true)
      (hr : ∀ c ∈ r.head?, isBlank c = true) (hws : Spaced ws r) : Spaced (w :: ws) (gap ++ w.text ++ r)

namespace Spaced

/-- The words with a single blank before each of them. -/
def single (ws : List Word) : List Char :=
  ws.flatMap fun w => ' ' :: w.text

theorem head?_single (ws : List Word) : ∀ c ∈ (single ws).head?, isBlank c = true := by
  cases ws with
  | nil => simp [single]
  | cons w ws => simpa [single] using (by decide : isBlank ' ' = true)

theorem spaced_single : ∀ ws : List Word, Spaced ws (single ws)
  | [] => .nil (by simp [single])
  | w :: ws => by
    have hgap : ∀ c ∈ [' '], isGap c = true := List.forall_mem_singleton.2 (by decide)
    exact .cons hgap (head?_single ws) (spaced_single ws)

/-- The first word may stand without a blank before it. -/
theorem spaced_first (w : Word) (ws : List Word) : Spaced (w :: ws) (w.text ++ single ws) :=
  @cons [] w ws _ (by simp) (head?_single ws) (spaced_single ws)

variable {ws : List Word} {s : List Char}

/-- **Cutting gives the words back.** -/
theorem words_eq (h : Spaced ws s) : words s = ws.map (·.text) := by
  induction h with
  | nil hgap => exact words_of_blank fun c hc => isBlank_of_isGap (hgap c hc)
  | cons hgap hr _ ih =>
    rw [List.append_assoc, words_append_left fun c hc => isBlank_of_isGap (hgap c hc),
      words_append_word _ hr, ih, List.map_cons]

theorem solid (h : Spaced ws s) (hne : ws ≠ []) : ∃ c ∈ s, isBlank c = false := by
  cases h with
  | nil => exact absurd rfl hne
  | @cons gap w ws r =>
    obtain ⟨c, hc⟩ := List.exists_mem_of_ne_nil _ w.nonempty
    exact ⟨c, by simp [hc], w.solid c hc⟩

theorem no_break (h : Spaced ws s) : ∀ c ∈ s, isLineBreak c = false := by
  induction h with
  | nil hgap => exact fun c hc => isLineBreak_of_isGap (hgap c hc)
  | @cons gap w ws r hgap _ _ ih =>
    intro c hc
    rcases List.mem_append.1 hc with hc | hc
    · rcases List.mem_append.1 hc with hc | hc
      · exact isLineBreak_of_isGap (hgap c hc)
      · exact isLineBreak_of_not_blank (w.solid c hc)
    · exact ih c hc

end Spaced

end Crossref.Text
