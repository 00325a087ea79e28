/-
Text that is written as lines, each with a line break after it, and what cutting it
into lines gives back. The last line may stand without a break.
-/
import Crossref.Text.Line

namespace Crossref.Text

/-- What may stand at the end of a line before the rest of the text: a line break, but the carriage
return and the line feed are one break when they stand together. -/
inductive Breaks : List Char → List Char → Prop
  | pair {rest : List Char} : Breaks ['\r', '\n'] rest
  | single {c : Char} {rest : List Char} (hc : isLineBreak c = true)
      (hpair : c = '\r' → rest.head? ≠ some '\n') : Breaks [c] rest

/-- The text holds the lines. -/
inductive Joined : List (List Char) → List Char → Prop
  | nil : Joined [] []
  | last {line : List Char} (hne : line ≠ []) : Joined [line] line
  | cons {line ending : List Char} {ls : List (List Char)} {rest : List Char} (hending : Breaks ending rest)
      (hrest : Joined ls rest) : Joined (line :: ls) (line ++ ending ++ rest)

/-- Lines may end with line feeds. -/
theorem joined_lineFeeds (ls : List (List Char)) : Joined ls (ls.flatMap (· ++ ['\n'])) := by
  induction ls with
  | nil => exact .nil
  | cons line ls ih => exact .cons (.single (by decide) fun h => absurd h (by decide)) ih

theorem linesFrom_append {line : List Char} (hline : ∀ c ∈ line, isLineBreak c = false)
    (seen : List Char) (done : List (List Char)) (rest : List Char) :
    linesFrom seen done (line ++ rest) = linesFrom (line.reverse ++ seen) done rest := by
  induction line generalizing seen with
  | nil => rfl
  | cons c line ih =>
    have hc := hline c (by simp)
    have hpair (r : List Char) (hcr : c = '\r') (_ : line ++ rest = '\n' :: r) : False := by
      subst hcr
      exact absurd hc (by decide)
    rw [List.cons_append, linesFrom.eq_3 _ _ _ _ hpair, if_neg (by simp [hc]),
      ih fun d hd => hline d (List.mem_cons_of_mem _ hd)]
    simp

theorem linesFrom_break {ending rest : List Char} (h : Breaks ending rest) (seen : List Char)
    (done : List (List Char)) :
    linesFrom seen done (ending ++ rest) = linesFrom [] (seen.reverse :: done) rest := by
  cases h with
  | pair => rfl
  | @single c _ hc hpair =>
    have hpair (r : List Char) (hcr : c = '\r') (hr : rest = '\n' :: r) : False :=
      hpair hcr (by rw [hr]; rfl)
    rw [List.singleton_append, linesFrom.eq_3 _ _ _ _ hpair, if_pos hc]

/-- **Cutting gives the lines back.** -/
theorem lines_of_joined {ls : List (List Char)} {s : List Char} (h : Joined ls s)
    (hls : ∀ line ∈ ls, ∀ c ∈ line, isLineBreak c = false) : lines s = ls := by
  have hfrom (done : List (List Char)) : linesFrom [] done s = done.reverse ++ ls := by
    induction h generalizing done with
    | nil => simp [linesFrom]
    | @last line hne =>
      have happend := linesFrom_append (hls line (by simp)) [] done []
      rw [List.append_nil] at happend
      rw [happend, linesFrom]
      simp [hne]
    | @cons line ending ls rest hending _ ih =>
      rw [List.append_assoc, linesFrom_append (hls line (by simp)), linesFrom_break hending,
        ih fun l hl => hls l (List.mem_cons_of_mem _ hl)]
      simp
  exact hfrom []

end Crossref.Text
