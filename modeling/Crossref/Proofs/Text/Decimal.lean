/-
A number with a point, written in plain digits, is a real number: the time that an
update records can be read back.
-/
import Crossref.Text.Decimal

namespace Crossref.Text

theorem range_of_isDigit {c : Char} (h : c.isDigit = true) : 48 ≤ c.toNat ∧ c.toNat ≤ 57 :=
  Char.isDigit_iff_toNat.1 h

theorem digitValue?_of_isDigit {c : Char} (h : c.isDigit = true) :
    digitValue? c = some (c.toNat - 48) := by
  have hrange := range_of_isDigit h
  simp [digitValue?, zeroDigits, hrange.1, hrange.2]

/-- The characters of a written number: digits, the point and the sign. -/
def isPlain (c : Char) : Bool :=
  c.isDigit || c = '.' || c = '-'

theorem isPlain_of_isDigit {c : Char} (h : c.isDigit = true) : isPlain c = true := by
  simp [isPlain, h]

theorem plainDigits_of_plain {s : List Char} (h : ∀ c ∈ s, isPlain c = true) : plainDigits s = s := by
  conv => rhs; rw [← List.map_id s]
  refine List.map_congr_left fun c hc => ?_
  have hplain := h c hc
  simp only [isPlain, Bool.or_eq_true, decide_eq_true_eq] at hplain
  rcases hplain with (hdigit | rfl) | rfl
  · have hrange := range_of_isDigit hdigit
    simp only [digitValue?_of_isDigit hdigit, id_eq]
    rw [show 48 + (c.toNat - 48) = c.toNat by omega, Char.ofNat_toNat]
  · decide
  · decide

theorem dropUnderscores_of_plain :
    ∀ {s : List Char} {before : Char}, before ≠ '_' → (∀ c ∈ s, isPlain c = true) →
      dropUnderscores before s = some s
  | [], before, hb, _ => by simp [dropUnderscores, hb]
  | c :: s, before, hb, h => by
    have hc : c ≠ '_' := by
      intro heq
      subst heq
      exact absurd (h '_' (by simp)) (by decide)
    have ih := dropUnderscores_of_plain hc fun d hd => h d (List.mem_cons_of_mem _ hd)
    simp [dropUnderscores, hb, hc, ih]

theorem not_blank_of_plain {c : Char} (h : isPlain c = true) : isNumeralBlank c = false := by
  simp only [isPlain, Bool.or_eq_true, decide_eq_true_eq] at h
  rcases h with (hdigit | rfl) | rfl
  · have hrange := range_of_isDigit hdigit
    have hblank : isBlank c = false := by
      simp only [isBlank, inRanges, blankRanges, List.any_cons, List.any_nil, Bool.or_false,
        Bool.or_eq_false_iff, Bool.and_eq_false_iff, decide_eq_false_iff_not]
      omega
    simp [isNumeralBlank, hblank]
  · decide
  · decide

theorem dropWhile_blank_of_plain {s : List Char} (h : ∀ c ∈ s, isPlain c = true) :
    s.dropWhile isNumeralBlank = s := by
  cases s with
  | nil => rfl
  | cons c s => rw [List.dropWhile_cons, if_neg (by simp [not_blank_of_plain (h c (by simp))])]

theorem takeWhile_digits {ds : List Char} (h : ∀ c ∈ ds, c.isDigit = true) (r : List Char)
    (hr : ∀ c ∈ r.head?, c.isDigit = false) :
    (ds ++ r).takeWhile Char.isDigit = ds ∧ (ds ++ r).dropWhile Char.isDigit = r := by
  induction ds with
  | nil =>
    cases r with
    | nil => exact ⟨rfl, rfl⟩
    | cons c r => simp [hr c (by simp)]
  | cons d ds ih =>
    have ih := ih fun c hc => h c (List.mem_cons_of_mem _ hc)
    simp [h d (by simp), ih]

theorem readUnsigned_pointed {ds es : List Char} (hds : ∀ c ∈ ds, c.isDigit = true) (hne : ds ≠ [])
    (hes : ∀ c ∈ es, c.isDigit = true) : (readUnsigned (ds ++ '.' :: es)).isSome = true := by
  have hwhole := takeWhile_digits hds ('.' :: es) (by simp)
  have hfraction := takeWhile_digits hes [] (by simp)
  rw [List.append_nil] at hfraction
  simp [readUnsigned, hwhole, hfraction, hne, readExponent]

theorem readTrimmed_isSome {s : List Char} (h : (readUnsigned (signOf s).2).isSome = true) :
    (readTrimmed s).isSome = true := by
  simp only [readTrimmed]
  split
  · rfl
  · rfl
  · rfl
  · rwa [Option.isSome_map]

theorem signOf_of_digit {c : Char} {s : List Char} (h : c.isDigit = true) :
    signOf (c :: s) = (1, c :: s) := by
  unfold signOf
  split
  next heq => simp only [List.cons.injEq] at heq; exact absurd (heq.1 ▸ h) (by decide)
  next heq => simp only [List.cons.injEq] at heq; exact absurd (heq.1 ▸ h) (by decide)
  · rfl

/-- **A number with a point reads back as a real number.** -/
theorem isReal_pointed (whole : Int) (fraction : Nat) :
    isReal (toString whole ++ "." ++ toString fraction).toList = true := by
  have hdigits (n : Nat) : ∀ c ∈ n.repr.toList, c.isDigit = true := by
    rw [Nat.toList_repr]
    exact fun c hc => Nat.isDigit_of_mem_toDigits (by decide) (by decide) hc
  have hne (n : Nat) : n.repr.toList ≠ [] := by
    rw [Nat.toList_repr]
    exact Nat.toDigits_ne_nil
  -- A whole number is written as digits, with at most a hyphen before them.
  obtain ⟨sign, n, hwhole, hsign⟩ : ∃ (sign : List Char) (n : Nat),
      (toString whole).toList = sign ++ n.repr.toList ∧ (sign = [] ∨ sign = ['-']) := by
    cases whole with
    | ofNat n => exact ⟨[], n, rfl, .inl rfl⟩
    | negSucc n => exact ⟨['-'], n + 1, by simp [Int.toString_eq_repr, Int.repr], .inr rfl⟩
  have htext : (toString whole ++ "." ++ toString fraction).toList =
      sign ++ (n.repr.toList ++ '.' :: fraction.repr.toList) := by
    rw [String.toList_append, String.toList_append, hwhole]
    simp [Nat.toString_eq_repr]
  have hplain : ∀ c ∈ sign ++ (n.repr.toList ++ '.' :: fraction.repr.toList), isPlain c = true := by
    intro c hc
    simp only [List.mem_append, List.mem_cons] at hc
    rcases hc with hc | hc | rfl | hc
    · rcases hsign with rfl | rfl
      · simp at hc
      · rw [List.mem_singleton.1 hc]
        decide
    · exact isPlain_of_isDigit (hdigits n c hc)
    · decide
    · exact isPlain_of_isDigit (hdigits fraction c hc)
  have hbody : (signOf (sign ++ (n.repr.toList ++ '.' :: fraction.repr.toList))).2 =
      n.repr.toList ++ '.' :: fraction.repr.toList := by
    rcases hsign with rfl | rfl
    · obtain ⟨d, ds, hd⟩ := List.exists_cons_of_ne_nil (hne n)
      rw [hd, List.nil_append, List.cons_append]
      rw [signOf_of_digit (hdigits n d (by simp [hd]))]
    · rfl
  have hrev (c : Char) (hc : c ∈ (sign ++ (n.repr.toList ++ '.' :: fraction.repr.toList)).reverse) :
      isPlain c = true :=
    hplain c (List.mem_reverse.1 hc)
  have hread : (readUnsigned (n.repr.toList ++ '.' :: fraction.repr.toList)).isSome = true :=
    readUnsigned_pointed (hdigits n) (hne n) (hdigits fraction)
  rw [htext, isReal, readDecimal, plainDigits_of_plain hplain,
    dropUnderscores_of_plain (by decide) hplain]
  simp only [dropWhile_blank_of_plain hplain, dropWhile_blank_of_plain hrev, List.reverse_reverse]
  exact readTrimmed_isSome (by rw [hbody]; exact hread)

end Crossref.Text
