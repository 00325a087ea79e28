/-
Text and the bytes that it was decoded from. A character is read from bytes of its
own, whatever follows them, so what a text begins with is what its bytes begin with.
A byte ten stands for a line feed and for nothing else: line feeds may be counted in
the bytes as well as in the text.
-/
import Mathlib.Algebra.Ring.Nat
import Crossref.Text.Utf8

namespace Crossref.Text

/-! ## One character -/

theorem toNat_ofNat {n : Nat} (h : n.isValidChar) : (Char.ofNat n).toNat = n := by
  unfold Char.ofNat
  rw [dif_pos h]
  unfold Char.ofNatAux Char.toNat
  simp

theorem ofNat_ne_feed {n : Nat} (h : 0x80 ≤ n) : Char.ofNat n ≠ '\n' := by
  intro hc
  have hten : (Char.ofNat n).toNat = 10 := congrArg Char.toNat hc
  by_cases hvalid : n.isValidChar
  · rw [toNat_ofNat hvalid] at hten
    omega
  · have hzero : Char.ofNat n = Char.ofNat 0 := by
      conv => lhs; unfold Char.ofNat
      rw [dif_neg hvalid]
      rfl
    rw [hzero] at hten
    exact absurd hten (by decide)

/-- A plain byte is the character with its number. -/
theorem ofNat_eq_feed_iff {b : UInt8} (h : b < 0x80) : Char.ofNat b.toNat = '\n' ↔ b = 10 := by
  have hb : b.toNat < 0x80 := UInt8.lt_iff_toNat_lt.1 h
  constructor
  · intro hc
    have hten : (Char.ofNat b.toNat).toNat = 10 := congrArg Char.toNat hc
    rw [toNat_ofNat (.inl (by omega))] at hten
    exact UInt8.toNat_inj.1 hten
  · rintro rfl
    rfl

theorem ne_feed_of_le {b : UInt8} (h : 0x80 ≤ b.toNat) : b ≠ 10 := by
  rintro rfl
  exact absurd h (by decide)

/-- What is read of a sequence after its first two bytes. -/
theorem continuation_eq_ok {n : Nat} : ∀ {seen : Bytes} {bits : Nat} {s : Bytes} {c : Char} {next : Bytes},
    continuation seen bits n s = .ok (c, next) → ∃ sequence, s = sequence ++ next ∧
      (∀ more, continuation seen bits n (sequence ++ more) = .ok (c, more)) ∧ (∀ b ∈ sequence, b ≠ 10) ∧
      ∃ m, bits * 64 ^ n ≤ m ∧ c = Char.ofNat m := by
  induction n with
  | zero =>
    intro seen bits s c next h
    rw [continuation] at h
    obtain ⟨rfl, rfl⟩ := Prod.mk.inj (Except.ok.inj h)
    exact ⟨[], rfl, fun more => by rw [List.nil_append, continuation], List.forall_mem_nil _, bits,
      by simp, rfl⟩
  | succ n ih =>
    intro seen bits s c next h
    cases s with
    | nil => cases h
    | cons b s =>
      rw [continuation] at h
      split at h
      next hrange =>
        obtain ⟨sequence, rfl, hmore, hnone, m, hm, rfl⟩ := ih h
        have hb := ne_feed_of_le (UInt8.le_iff_toNat_le.1 (of_decide_eq_true (Bool.and_eq_true_iff.1 hrange).1))
        refine ⟨b :: sequence, rfl, fun more => ?_, List.forall_mem_cons.2 ⟨hb, hnone⟩, m, ?_, rfl⟩
        · rw [List.cons_append, continuation, if_pos hrange, hmore]
        · refine Nat.le_trans ?_ hm
          rw [Nat.pow_succ', ← Nat.mul_assoc]
          exact Nat.mul_le_mul_right _ (Nat.le_add_right _ _)
      · cases h

/-- A character of several bytes is beyond the plain ones. -/
theorem Utf8Lead.beyond_plain {b c : UInt8} {lead : Utf8Lead} (h : Utf8Lead.of? b = some lead) (hlow : lead.low ≤ c) :
    b ≠ 10 ∧ c ≠ 10 ∧ 0x80 ≤ (lead.bits * 64 + (c.toNat - 0x80)) * 64 ^ lead.more := by
  unfold Utf8Lead.of? at h
  have hnumber {n : UInt8} (hn : n ≤ c) : n.toNat ≤ c.toNat := UInt8.le_iff_toNat_le.1 hn
  have hlimit {n : UInt8} (hn : ¬b < n) : n.toNat ≤ b.toNat :=
    Nat.le_of_not_lt fun hlt => hn (UInt8.lt_iff_toNat_lt.2 hlt)
  split at h
  · cases h
  next hstart =>
    have hb : 0xC2 ≤ b.toNat := hlimit hstart
    refine ⟨ne_feed_of_le (by omega), ?_⟩
    split at h
    · obtain rfl := Option.some.inj h
      have hc : 0x80 ≤ c.toNat := hnumber hlow
      exact ⟨ne_feed_of_le hc, by simp only [Nat.pow_zero]; omega⟩
    next htwo =>
      have hb : 0xE0 ≤ b.toNat := hlimit htwo
      split at h
      -- where the first byte adds nothing, the second one is larger
      · obtain rfl := Option.some.inj h
        dsimp only at hlow ⊢
        split at hlow
        · have hc : 0xA0 ≤ c.toNat := hnumber hlow
          exact ⟨ne_feed_of_le (by omega), by omega⟩
        next hfirst =>
          have hc : 0x80 ≤ c.toNat := hnumber hlow
          have hne : b.toNat ≠ 0xE0 := fun heq => hfirst (UInt8.toNat_inj.1 heq)
          exact ⟨ne_feed_of_le hc, by omega⟩
      next hthree =>
        have hb : 0xF0 ≤ b.toNat := hlimit hthree
        split at h
        · obtain rfl := Option.some.inj h
          dsimp only at hlow ⊢
          split at hlow
          · have hc : 0x90 ≤ c.toNat := hnumber hlow
            exact ⟨ne_feed_of_le (by omega), by omega⟩
          next hfirst =>
            have hc : 0x80 ≤ c.toNat := hnumber hlow
            have hne : b.toNat ≠ 0xF0 := fun heq => hfirst (UInt8.toNat_inj.1 heq)
            exact ⟨ne_feed_of_le hc, by omega⟩
        · cases h

/-- A character is read from bytes of its own, and one of them is ten only for a line feed. -/
theorem decodeChar_eq_ok {b : UInt8} {s next : Bytes} {c : Char} (h : decodeChar b s = .ok (c, next)) :
    ∃ sequence, s = sequence ++ next ∧ (∀ more, decodeChar b (sequence ++ more) = .ok (c, more)) ∧
      (b :: sequence).count 10 = [c].count '\n' := by
  unfold decodeChar at h
  split at h
  next hplain =>
    cases h
    refine ⟨[], rfl, fun more => by rw [decodeChar, if_pos hplain]; rfl, ?_⟩
    have hiff := ofNat_eq_feed_iff hplain
    by_cases hb : b = 10
    · rw [hiff.2 hb, hb]
      rfl
    · have hnot : Char.ofNat b.toNat ≠ '\n' := fun hc => hb (hiff.1 hc)
      rw [List.count_eq_zero.2 (by simpa using Ne.symm hb), List.count_eq_zero.2 (by simpa using hnot.symm)]
  next hplain =>
    split at h
    · cases h
    next lead hlead =>
      cases s with
      | nil => cases h
      | cons d s =>
        dsimp only at h
        split at h
        next hrange =>
          obtain ⟨sequence, rfl, hmore, hnone, m, hm, rfl⟩ := continuation_eq_ok h
          have hlow : lead.low ≤ d := of_decide_eq_true (Bool.and_eq_true_iff.1 hrange).1
          obtain ⟨hb, hd, hlarge⟩ := Utf8Lead.beyond_plain hlead hlow
          refine ⟨d :: sequence, rfl, fun more => ?_, ?_⟩
          · rw [decodeChar, if_neg hplain, hlead]
            dsimp only [List.cons_append]
            rw [if_pos hrange, hmore]
          · have hfeed : Char.ofNat m ≠ '\n' := ofNat_ne_feed (Nat.le_trans hlarge hm)
            have hnot : '\n' ∉ [Char.ofNat m] := by simpa using hfeed.symm
            rw [List.count_eq_zero.2 hnot, List.count_eq_zero]
            simp only [List.mem_cons, not_or]
            exact ⟨hb.symm, hd.symm, fun hmem => hnone 10 hmem rfl⟩
        · cases h

/-! ## Text -/

/-- The bytes are read as the text, character by character. -/
inductive Decodes : Bytes → List Char → Prop
  | nil : Decodes [] []
  | cons {b : UInt8} {rest next : Bytes} {c : Char} {t : List Char} (hc : decodeChar b rest = .ok (c, next))
      (ht : Decodes next t) : Decodes (b :: rest) (c :: t)

theorem decodeFrom_cons {b : UInt8} {rest next : Bytes} {c : Char} (h : decodeChar b rest = .ok (c, next))
    (all : Bytes) (read : List Char) : decodeFrom all read (b :: rest) = decodeFrom all (c :: read) next := by
  rw [decodeFrom]
  split
  next heq =>
    rw [h] at heq
    cases heq
  next heq =>
    rw [h] at heq
    cases heq
    rfl

theorem Decodes.decodeFrom {s : Bytes} {t : List Char} (h : Decodes s t) (all : Bytes) (read : List Char) :
    decodeFrom all read s = .ok (read.reverse ++ t) := by
  induction h generalizing read with
  | nil => rw [Text.decodeFrom, List.append_nil]
  | cons hc _ ih =>
    rw [decodeFrom_cons hc, ih]
    simp

theorem decodes_of_decodeFrom (all : Bytes) {read : List Char} {s : Bytes} {text : List Char}
    (h : decodeFrom all read s = .ok text) : ∃ t, text = read.reverse ++ t ∧ Decodes s t := by
  induction read, s using decodeFrom.induct with
  | case1 read =>
    rw [decodeFrom] at h
    cases h
    exact ⟨[], by simp, .nil⟩
  | case2 read b rest sequence fault hbad =>
    rw [decodeFrom] at h
    split at h
    · cases h
    next hgood =>
      rw [hbad] at hgood
      cases hgood
  | case3 read b rest c next hc ih =>
    rw [decodeFrom_cons hc] at h
    obtain ⟨t, rfl, ht⟩ := ih h
    exact ⟨c :: t, by simp, .cons hc ht⟩

theorem decodeUtf8_eq_ok {s : Bytes} {t : List Char} : decodeUtf8 s = .ok t ↔ Decodes s t := by
  constructor
  · intro h
    obtain ⟨t', rfl, ht⟩ := decodes_of_decodeFrom s h
    exact ht
  · intro h
    exact h.decodeFrom s []

theorem Decodes.split {t₂ : List Char} : ∀ {t₁ : List Char} {s : Bytes}, Decodes s (t₁ ++ t₂) →
    ∃ s₁ s₂, s = s₁ ++ s₂ ∧ Decodes s₁ t₁ ∧ Decodes s₂ t₂ ∧ s₁.count 10 = t₁.count '\n'
  | [], s, h => ⟨[], s, rfl, .nil, h, rfl⟩
  | c :: t₁, _, h => by
    cases h with
    | @cons b _ next _ _ hc ht =>
      obtain ⟨sequence, rfl, hmore, hcount⟩ := decodeChar_eq_ok hc
      obtain ⟨s₁, s₂, rfl, h₁, h₂, hrest⟩ := ht.split
      refine ⟨(b :: sequence) ++ s₁, s₂, by simp, .cons (hmore s₁) h₁, h₂, ?_⟩
      rw [List.count_append, hcount, hrest, ← List.count_append, List.singleton_append]

/-- **The beginning of a text has bytes of its own, with as many tens as there are line feeds in it.** -/
theorem exists_bytes_before {content : Bytes} {before after : List Char}
    (h : decodeUtf8 content = .ok (before ++ after)) :
    ∃ bytes rest, content = bytes ++ rest ∧ decodeUtf8 bytes = .ok before ∧ bytes.count 10 = before.count '\n' := by
  obtain ⟨bytes, rest, hs, hbefore, -, hcount⟩ := (decodeUtf8_eq_ok.1 h).split
  exact ⟨bytes, rest, hs, decodeUtf8_eq_ok.2 hbefore, hcount⟩

/-- The bytes before a bad one are those that the content begins with. -/
theorem before_isPrefix_of_error {content : Bytes} {e : Utf8Error} (h : decodeUtf8 content = .error e) :
    e.before <+: content := by
  have hfrom (read : List Char) (s : Bytes) (h : decodeFrom content read s = .error e) : e.before <+: content := by
    induction read, s using decodeFrom.induct with
    | case1 read =>
      rw [decodeFrom] at h
      cases h
    | case2 read b rest sequence fault hbad =>
      rw [decodeFrom] at h
      split at h
      · cases h
        exact List.take_prefix _ _
      next hgood =>
        rw [hbad] at hgood
        cases hgood
    | case3 read b rest c next hc ih =>
      rw [decodeFrom_cons hc] at h
      exact ih h
  exact hfrom [] content h

end Crossref.Text
