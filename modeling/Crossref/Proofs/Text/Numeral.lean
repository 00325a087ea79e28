/-
Numbers as they are written in a record: plain digits, not more of them than may be
read. Such a number is read as what its digits denote.
-/
import Crossref.Proofs.Text.Decimal
import Crossref.Proofs.Text.Words

namespace Crossref.Text

theorem isDecimal_of_isDigit {c : Char} (h : c.isDigit = true) : isDecimal c = true := by
  rw [isDecimal, digitValue?_of_isDigit h, Option.isSome_some]

theorem isBlank_of_isDigit {c : Char} (h : c.isDigit = true) : isBlank c = false := by
  have hrange := range_of_isDigit h
  simp only [isBlank, inRanges, blankRanges, List.any_cons, List.any_nil, Bool.or_false,
    Bool.or_eq_false_iff, Bool.and_eq_false_iff, decide_eq_false_iff_not]
  omega

theorem signOf_of_decimal : ∀ {s : List Char}, (∀ c ∈ s, isDecimal c = true) → signOf s = (1, s)
  | [], _ => rfl
  | c :: s, h => by
    have hc : isDecimal c = true := h c (by simp)
    unfold signOf
    split
    next heq =>
      obtain rfl := (List.cons.inj heq).1
      exact absurd hc (by decide)
    next heq =>
      obtain rfl := (List.cons.inj heq).1
      exact absurd hc (by decide)
    · rfl

/-- A number that is written without a sign is not negative. -/
theorem readInt_nonneg {s : List Char} (h : ∀ c ∈ s, isDecimal c = true) {n : Int}
    (hn : readInt s = .ok n) : 0 ≤ n := by
  have hsign : signOf (s.dropWhile isNumeralBlank) = (1, s.dropWhile isNumeralBlank) :=
    signOf_of_decimal fun c hc => h c ((List.dropWhile_sublist _).subset hc)
  unfold readInt at hn
  rw [hsign] at hn
  dsimp only at hn
  split at hn
  · cases hn
  · split at hn
    · cases hn
    · split at hn
      · cases hn
      · obtain rfl := Except.ok.inj hn
        omega

/-- A number as it is written. -/
structure Numeral where
  digits : List Char
  nonempty : digits ≠ []
  plain : ∀ c ∈ digits, c.isDigit = true
  short : digits.length ≤ maxDigits

namespace Numeral

/-- Numbers are the same if they are written with the same digits. -/
theorem eq_iff {m n : Numeral} : m = n ↔ m.digits = n.digits := by
  cases m
  cases n
  simp

instance : DecidableEq Numeral :=
  fun _ _ => decidable_of_iff _ eq_iff.symm

def value (n : Numeral) : Nat :=
  natOfPlain n.digits

def word (n : Numeral) : Word :=
  ⟨n.digits, n.nonempty, fun c hc => isBlank_of_isDigit (n.plain c hc)⟩

theorem decimal (n : Numeral) : ∀ c ∈ n.digits, isDecimal c = true :=
  fun c hc => isDecimal_of_isDigit (n.plain c hc)

theorem digitRun_of_plain : ∀ {ds : List Char}, (∀ c ∈ ds, c.isDigit = true) →
    digitRun ds = some (ds.map fun c => c.toNat - 48, [])
  | [], _ => rfl
  | c :: ds, h => by
    have ih := digitRun_of_plain fun d hd => h d (List.mem_cons_of_mem c hd)
    have hunder (d : Char) (hd : d ∈ ds) : d ≠ '_' := by
      intro heq
      subst heq
      exact absurd (h '_' (List.mem_cons_of_mem _ hd)) (by decide)
    rw [digitRun, digitValue?_of_isDigit (h c (by simp))]
    dsimp only
    split
    next => exact absurd rfl (hunder '_' (by simp))
    next => exact absurd rfl (hunder '_' (by simp))
    next => rw [ih]; rfl

/-- **A written number is read as its value.** -/
theorem readInt_digits (n : Numeral) : readInt n.digits = .ok n.value := by
  obtain ⟨ds, hne, hplain, hshort⟩ := n
  obtain ⟨d, ds, rfl⟩ := List.exists_cons_of_ne_nil hne
  have hblank : (d :: ds).dropWhile isNumeralBlank = d :: ds :=
    dropWhile_blank_of_plain fun c hc => isPlain_of_isDigit (hplain c hc)
  unfold readInt
  rw [hblank, signOf_of_digit (hplain d (by simp))]
  simp only [digitRun_of_plain hplain, List.length_map, List.isEmpty_map]
  rw [if_neg (by omega)]
  simp [value, natOfPlain]

end Numeral

end Crossref.Text
