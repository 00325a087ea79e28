/-
Physical lines, which end at line feeds, beside the lines that text is cut into. Both
are one way of cutting, with fewer or more characters to cut at. They are the same
unless some other break stands in the text; and as many lines begin as there are line
feeds and other breaks before.
-/
import Crossref.Proofs.Text.Lines

namespace Crossref.Text

/-! ## Cutting -/

/-- Text cut at the characters that break it, and at each carriage return with a line feed after it. -/
def cut (breaks : Char → Bool) : List Char → List (List Char)
  | [] => []
  | '\r' :: '\n' :: s => [] :: cut breaks s
  | c :: s =>
    if breaks c then [] :: cut breaks s
    else match cut breaks s with
      | [] => [[c]]
      | line :: ls => (c :: line) :: ls

/-- The lines of the text that end at its line feeds, a carriage return before one being part of the end. -/
def physicalLines (s : List Char) : List (List Char) :=
  cut (· = '\n') s

/-- How many line breaks are neither a line feed nor the carriage return before one. -/
def strayBreaks : List Char → Nat
  | [] => 0
  | '\r' :: '\n' :: s => strayBreaks s
  | c :: s => strayBreaks s + if isLineBreak c && c ≠ '\n' then 1 else 0

section
variable {breaks : Char → Bool} {c : Char} {s : List Char}

/-- A character that does not begin a pair. -/
def Alone (c : Char) (s : List Char) : Prop :=
  c = '\r' → s.head? ≠ some '\n'

theorem Alone.pair (h : Alone c s) : ∀ r, c = '\r' → s = '\n' :: r → False := by
  rintro r hc rfl
  exact h hc rfl

theorem alone_of_pair (h : ∀ r, c = '\r' → s = '\n' :: r → False) : Alone c s := by
  intro hc hs
  cases s with
  | nil => cases hs
  | cons d s =>
    obtain rfl := Option.some.inj hs
    exact h s hc rfl

theorem alone_of_not_break (h : isLineBreak c = false) (s : List Char) : Alone c s := by
  rintro rfl
  exact absurd h (by decide)

theorem cut_break (hs : Alone c s) (hc : breaks c = true) : cut breaks (c :: s) = [] :: cut breaks s := by
  rw [cut.eq_3 _ _ _ hs.pair, if_pos hc]

theorem cut_cons (hs : Alone c s) (hc : breaks c = false) :
    cut breaks (c :: s) = match cut breaks s with
      | [] => [[c]]
      | line :: ls => (c :: line) :: ls := by
  rw [cut.eq_3 _ _ _ hs.pair, if_neg (by simp [hc])]

theorem cut_ne_nil (breaks : Char → Bool) (hne : s ≠ []) : cut breaks s ≠ [] := by
  intro h
  unfold cut at h
  split at h
  · exact hne rfl
  · cases h
  · split at h
    · cases h
    · split at h <;> cases h

theorem strayBreaks_cons (hs : Alone c s) :
    strayBreaks (c :: s) = strayBreaks s + if isLineBreak c && c ≠ '\n' then 1 else 0 :=
  strayBreaks.eq_3 _ _ hs.pair

end

/-- Text before the first of some lines. -/
def putBefore (seen : List Char) : List (List Char) → List (List Char)
  | [] => if seen.isEmpty then [] else [seen]
  | line :: ls => (seen ++ line) :: ls

theorem linesFrom_eq (seen : List Char) (done : List (List Char)) (s : List Char) :
    linesFrom seen done s = done.reverse ++ putBefore seen.reverse (cut isLineBreak s) := by
  induction seen, done, s using linesFrom.induct with
  | case1 line done =>
    rw [linesFrom, cut, putBefore]
    cases line with
    | nil => simp
    | cons c line => simp
  | case2 line done r ih =>
    rw [linesFrom, ih, cut]
    cases hcut : cut isLineBreak r <;> simp [putBefore]
  | case3 line done c r hpair hc ih =>
    rw [linesFrom.eq_3 _ _ _ _ hpair, if_pos hc, ih, cut_break (alone_of_pair hpair) hc]
    cases hcut : cut isLineBreak r <;> simp [putBefore]
  | case4 line done c r hpair hc ih =>
    rw [linesFrom.eq_3 _ _ _ _ hpair, if_neg hc, ih, cut_cons (alone_of_pair hpair) (by simpa using hc)]
    cases hcut : cut isLineBreak r <;> simp [putBefore]

theorem lines_eq_cut (s : List Char) : lines s = cut isLineBreak s := by
  rw [lines, linesFrom_eq]
  cases cut isLineBreak s <;> rfl

/-! ## Every text holds its lines -/

theorem joined_cut (s : List Char) : Joined (cut isLineBreak s) s := by
  induction s using strayBreaks.induct with
  | case1 => exact .nil
  | case2 s ih => exact @Joined.cons [] ['\r', '\n'] _ s .pair ih
  | case3 c s hpair ih =>
    have hs := alone_of_pair hpair
    cases hc : isLineBreak c with
    | true =>
      rw [cut_break hs hc]
      exact @Joined.cons [] [c] _ s (.single hc hs) ih
    | false =>
      rw [cut_cons hs hc]
      generalize cut isLineBreak s = ls at ih
      cases ih with
      | nil => exact .last (by simp)
      | last hne => exact .last (by simp)
      | @cons line ending ls rest hending hrest => exact @Joined.cons (c :: line) ending ls rest hending hrest

theorem joined_lines (s : List Char) : Joined (lines s) s :=
  lines_eq_cut s ▸ joined_cut s

/-- No line has a break in it. -/
theorem no_break_of_mem_lines {s line : List Char} (h : line ∈ lines s) : ∀ c ∈ line, isLineBreak c = false := by
  rw [lines_eq_cut] at h
  induction s using strayBreaks.induct generalizing line with
  | case1 => cases h
  | case2 s ih =>
    rcases List.mem_cons.1 h with rfl | h
    · nofun
    · exact ih h
  | case3 c s hpair ih =>
    have hs := alone_of_pair hpair
    cases hc : isLineBreak c with
    | true =>
      rw [cut_break hs hc] at h
      rcases List.mem_cons.1 h with rfl | h
      · nofun
      · exact ih h
    | false =>
      rw [cut_cons hs hc] at h
      cases hcut : cut isLineBreak s with
      | nil =>
        rw [hcut] at h
        obtain rfl := List.mem_singleton.1 h
        simpa using hc
      | cons first ls =>
        rw [hcut] at h ih
        rcases List.mem_cons.1 h with rfl | h
        · exact List.forall_mem_cons.2 ⟨hc, ih (by simp)⟩
        · exact ih (List.mem_cons_of_mem _ h)

/-- What stands behind a line feed is cut by itself. -/
theorem cut_append_feed {breaks : Char → Bool} (hfeed : breaks '\n' = true) (s r : List Char) :
    cut breaks (s ++ '\n' :: r) = cut breaks (s ++ ['\n']) ++ cut breaks r := by
  have hnot : '\n' ≠ '\r' := by decide
  induction s using strayBreaks.induct with
  | case1 =>
    have halone (t : List Char) : Alone '\n' t := fun hr => absurd hr hnot
    rw [List.nil_append, List.nil_append, cut_break (halone r) hfeed, cut_break (halone []) hfeed]
    rfl
  | case2 s ih =>
    rw [List.cons_append, List.cons_append, List.cons_append, List.cons_append, cut, cut, ih]
    rfl
  | case3 c s hpair ih =>
    by_cases hlast : c = '\r' ∧ s = []
    · obtain ⟨rfl, rfl⟩ := hlast
      rfl
    · have hs (t : List Char) : Alone c (s ++ '\n' :: t) := by
        intro hc
        cases s with
        | nil => exact absurd ⟨hc, rfl⟩ hlast
        | cons d s =>
          have halone : Alone c (d :: s) := alone_of_pair hpair
          exact halone hc
      rw [List.cons_append, List.cons_append]
      cases hc : breaks c with
      | true => rw [cut_break (hs r) hc, cut_break (hs []) hc, ih]; rfl
      | false =>
        obtain ⟨line, ls, hcut⟩ := List.exists_cons_of_ne_nil (cut_ne_nil breaks (s := s ++ ['\n']) (by simp))
        rw [cut_cons (hs r) hc, cut_cons (hs []) hc, ih, hcut]
        rfl

theorem lines_append_feed (s r : List Char) : lines (s ++ '\n' :: r) = lines (s ++ ['\n']) ++ lines r := by
  rw [lines_eq_cut, lines_eq_cut, lines_eq_cut, cut_append_feed (by decide)]

/-- A line without breaks is the first line if the text goes on with a break. -/
theorem lines_cons {line ending s : List Char} (h : ∀ c ∈ line, isLineBreak c = false) (hending : Breaks ending s) :
    lines (line ++ ending ++ s) = line :: lines s :=
  lines_of_joined (.cons hending (joined_lines s)) <|
    List.forall_mem_cons.2 ⟨h, fun _ hl => no_break_of_mem_lines hl⟩

theorem lines_single {line : List Char} (h : ∀ c ∈ line, isLineBreak c = false) (hne : line ≠ []) :
    lines line = [line] :=
  lines_of_joined (.last hne) (List.forall_mem_singleton.2 h)

/-! ## Where the two kinds of line agree -/

theorem not_break_of_not_stray {c : Char} (h : (isLineBreak c && c ≠ '\n') = false) :
    isLineBreak c = decide (c = '\n') := by
  by_cases hc : c = '\n'
  · subst hc
    decide
  · simpa [hc] using h

/-- The breaks that are left inside physical lines are the stray ones. -/
theorem countP_physicalLines (s : List Char) : (physicalLines s).flatten.countP isLineBreak = strayBreaks s := by
  unfold physicalLines
  induction s using strayBreaks.induct with
  | case1 => rfl
  | case2 s ih =>
    rw [cut, strayBreaks, ← ih]
    rfl
  | case3 c s hpair ih =>
    have hs := alone_of_pair hpair
    rw [strayBreaks_cons hs, ← ih]
    by_cases hc : c = '\n'
    · rw [cut_break hs (decide_eq_true hc)]
      simp [hc]
    · rw [cut_cons hs (decide_eq_false hc)]
      cases hcut : cut (fun c => decide (c = '\n')) s with
      | nil => cases hb : isLineBreak c <;> simp [hc, hb]
      | cons line ls => cases hb : isLineBreak c <;> simp [hc, hb]

theorem lines_eq_of_strayBreaks {s : List Char} (h : strayBreaks s = 0) : lines s = physicalLines s := by
  rw [lines_eq_cut, physicalLines]
  induction s using strayBreaks.induct with
  | case1 => rfl
  | case2 s ih => rw [cut, cut, ih h]
  | case3 c s hpair ih =>
    have hs := alone_of_pair hpair
    rw [strayBreaks_cons hs, Nat.add_eq_zero_iff] at h
    have hstray : (isLineBreak c && c ≠ '\n') = false := by
      cases hc : (isLineBreak c && c ≠ '\n') with
      | false => rfl
      | true =>
        rw [if_pos hc] at h
        exact absurd h.2 (by decide)
    have hsame := not_break_of_not_stray hstray
    by_cases hc : c = '\n'
    · rw [cut_break hs (hsame.trans (decide_eq_true hc)), cut_break hs (decide_eq_true hc), ih h.1]
    · rw [cut_cons hs (hsame.trans (decide_eq_false hc)), cut_cons hs (decide_eq_false hc), ih h.1]

/-- **Text is cut into its physical lines exactly if there is no stray break in it.** -/
theorem lines_eq_physicalLines_iff (s : List Char) : lines s = physicalLines s ↔ strayBreaks s = 0 := by
  refine ⟨fun h => ?_, lines_eq_of_strayBreaks⟩
  rw [← countP_physicalLines, ← h, List.countP_eq_zero]
  intro c hc
  obtain ⟨line, hline, hc⟩ := List.mem_flatten.1 hc
  simp [no_break_of_mem_lines hline c hc]

/-! ## Counting lines -/

/-- How many breaks there are: line feeds and stray ones. -/
def breakCount (s : List Char) : Nat :=
  s.count '\n' + strayBreaks s

theorem breakCount_append_of_no_break {line : List Char} (h : ∀ c ∈ line, isLineBreak c = false) (s : List Char) :
    breakCount (line ++ s) = breakCount s := by
  induction line with
  | nil => rfl
  | cons c line ih =>
    have hc := h c (by simp)
    have hne : c ≠ '\n' := by
      rintro rfl
      exact absurd hc (by decide)
    have ih := ih fun d hd => h d (List.mem_cons_of_mem _ hd)
    unfold breakCount at ih ⊢
    rw [List.cons_append, strayBreaks_cons (alone_of_not_break hc _), List.count_cons_of_ne hne]
    simpa [hc] using ih

theorem Breaks.breakCount {ending s : List Char} (h : Breaks ending s) :
    breakCount (ending ++ s) = Text.breakCount s + 1 := by
  unfold Text.breakCount
  cases h with
  | pair =>
    rw [List.cons_append, List.singleton_append, strayBreaks, List.count_cons_of_ne (by decide), List.count_cons_self]
    omega
  | @single c _ hc hpair =>
    rw [List.singleton_append, strayBreaks_cons hpair]
    by_cases hfeed : c = '\n'
    · subst hfeed
      simp
      omega
    · rw [List.count_cons_of_ne hfeed]
      simp [hc, hfeed]
      omega

/-- A break that stands before a longer text stands before what the text begins with. -/
theorem Breaks.of_append {ending s t : List Char} (h : Breaks ending (s ++ t)) : Breaks ending s := by
  cases h with
  | pair => exact .pair
  | single hc hpair =>
    refine .single hc fun hr hs => hpair hr ?_
    rw [List.head?_append, hs, Option.some_or]

/-- A line begins behind as many breaks as there are lines before it. -/
theorem Joined.exists_before {ls ls' : List (List Char)} {line s : List Char} (h : Joined (ls ++ line :: ls') s)
    (hls : ∀ l ∈ ls, ∀ c ∈ l, isLineBreak c = false) :
    ∃ before after, s = before ++ line ++ after ∧ Joined ls before ∧ ls.length = breakCount before := by
  induction ls generalizing s with
  | nil =>
    cases h with
    | last _ => exact ⟨[], [], by simp, .nil, rfl⟩
    | @cons _ ending _ rest _ _ => exact ⟨[], ending ++ rest, by simp, .nil, rfl⟩
  | cons l ls ih =>
    rw [List.cons_append] at h
    generalize htail : ls ++ line :: ls' = tail at h
    cases h with
    | last _ => simp at htail
    | @cons _ ending _ rest hending hrest =>
      subst htail
      obtain ⟨before, after, rfl, hjoined, hlength⟩ := ih hrest fun l' hl' => hls l' (List.mem_cons_of_mem _ hl')
      have hending : Breaks ending before := by
        rw [List.append_assoc] at hending
        exact hending.of_append
      refine ⟨l ++ ending ++ before, after, by simp, .cons hending hjoined, ?_⟩
      rw [List.append_assoc, breakCount_append_of_no_break (hls l (by simp)), hending.breakCount, ← hlength,
        List.length_cons]

/-- What stands before a line of a text has the lines before it. -/
theorem exists_before_line {ls ls' : List (List Char)} {line s : List Char} (h : lines s = ls ++ line :: ls') :
    ∃ before after, s = before ++ line ++ after ∧ lines before = ls ∧ ls.length = breakCount before := by
  have hls : ∀ l ∈ ls, ∀ c ∈ l, isLineBreak c = false := fun l hl =>
    no_break_of_mem_lines (h ▸ List.mem_append_left _ hl)
  obtain ⟨before, after, hs, hjoined, hlength⟩ := Joined.exists_before (h ▸ joined_lines s) hls
  exact ⟨before, after, hs, lines_of_joined hjoined hls, hlength⟩

end Crossref.Text
