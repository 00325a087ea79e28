/-
The parts of a record read back. Each form is recognised in the text that it is
written as: the version between its quotes, the head of an entity line before its
references, and a reference.
-/
import Crossref.Proofs.Artifact.Document

namespace Crossref.Artifact

open Text

/-! ## Characters -/

/-- Decimal digits are the plain ones and others far beyond them. -/
theorem toNat_of_isDecimal {c : Char} (h : isDecimal c = true) :
    (48 ≤ c.toNat ∧ c.toNat ≤ 57) ∨ 1632 ≤ c.toNat := by
  rw [isDecimal, digitValue?, Option.isSome_map, Option.isSome_iff_exists] at h
  obtain ⟨z, hz⟩ := h
  have hrange := List.find?_some hz
  simp only [Bool.and_eq_true, decide_eq_true_eq] at hrange
  have hzeros : ∀ z ∈ zeroDigits, z = 48 ∨ 1632 ≤ z := by decide
  rcases hzeros z (List.mem_of_find?_eq_some hz) with rfl | hlarge
  · exact .inl hrange
  · exact .inr (Nat.le_trans hlarge hrange.1)

theorem toNat_of_isKindTag {c : Char} (h : isKindTag c = true) :
    c.toNat = 43 ∨ (65 ≤ c.toNat ∧ c.toNat ≤ 122) := by
  simp only [isKindTag, Bool.or_eq_true, Bool.and_eq_true, decide_eq_true_eq] at h
  rcases h with (h | h) | rfl
  · have hlow : 65 ≤ c.toNat := UInt32.le_iff_toNat_le.1 h.1
    have hhigh : c.toNat ≤ 90 := UInt32.le_iff_toNat_le.1 h.2
    omega
  · have hlow : 97 ≤ c.toNat := UInt32.le_iff_toNat_le.1 h.1
    have hhigh : c.toNat ≤ 122 := UInt32.le_iff_toNat_le.1 h.2
    omega
  · exact .inl rfl

theorem isDecimal_of_isKindTag {c : Char} (h : isKindTag c = true) : isDecimal c = false := by
  cases hdecimal : isDecimal c with
  | false => rfl
  | true =>
    have hrange := toNat_of_isDecimal hdecimal
    have htag := toNat_of_isKindTag h
    omega

theorem isLineBreak_of_isKindTag {c : Char} (h : isKindTag c = true) : isLineBreak c = false := by
  have htag := toNat_of_isKindTag h
  simp only [isLineBreak, inRanges, lineBreakRanges, List.any_cons, List.any_nil, Bool.or_false,
    Bool.or_eq_false_iff, Bool.and_eq_false_iff, decide_eq_false_iff_not]
  omega

/-! ## Forms -/

theorem version?_written (v : Version) : version? ('"' :: (v.text ++ ['"'])) = some v.text := by
  have hquote : '"' ∉ v.text := fun h => v.unquoted '"' h rfl
  simp [version?, hquote]

theorem ofText?_head (e : Entry) {rest : List Char} (hrest : ∀ c ∈ rest.head?, isBlank c = true) :
    EntityHead.ofText? (e.head ++ rest) =
      some ⟨e.line.digits, e.tag, e.column.digits, e.libraryLevel, e.name.text, rest⟩ := by
  let level : Char := if e.libraryLevel then '*' else ' '
  have hlevel : isDecimal level = false ∧ (level = '*' || level = ' ') = true ∧
      decide (level = '*') = e.libraryLevel := by
    cases hl : e.libraryLevel <;> simp only [level, hl] <;> decide
  have htext : e.head ++ rest =
      e.line.digits ++ e.tag :: (e.column.digits ++ level :: (e.name.text ++ rest)) := by
    simp [Entry.head, level]
  have hline := span_append (r := e.tag :: (e.column.digits ++ level :: (e.name.text ++ rest)))
    e.line.decimal fun c hc => by
      cases hc
      exact isDecimal_of_isKindTag e.kind
  have hcolumn := span_append (r := level :: (e.name.text ++ rest)) e.column.decimal fun c hc => by
    cases hc
    exact hlevel.1
  have hname := span_append (p := (!isBlank ·)) (l := e.name.text) (r := rest)
    (fun c hc => by simp [e.name.solid c hc]) fun c hc => by simp [hrest c hc]
  rw [htext, EntityHead.ofText?]
  simp only [hline.1, hline.2, hcolumn.1, hcolumn.2, hname.1, hname.2]
  rw [if_neg, hlevel.2.2]
  simp only [List.isEmpty_eq_false_iff.2 e.line.nonempty, List.isEmpty_eq_false_iff.2 e.column.nonempty,
    List.isEmpty_eq_false_iff.2 e.name.nonempty, e.kind, hlevel.2.1, Bool.not_true, Bool.or_false]
  decide

theorem afterIndex?_written (dependency : Option (List Char)) (t : Token) :
    Mention.afterIndex? dependency (t.line.digits ++ t.tag :: t.column.digits) =
      some ⟨dependency, t.line.digits, t.tag, t.column.digits⟩ := by
  obtain ⟨hdecimal, hblank, hbar⟩ := tag_plain t.tag_mem
  have hline := span_append (r := t.tag :: t.column.digits) t.line.decimal fun c hc => by
    cases hc
    exact hdecimal
  have hcolumn : t.column.digits.all isDecimal = true := List.all_eq_true.2 t.column.decimal
  rw [Mention.afterIndex?]
  simp only [hline.1, hline.2]
  rw [if_neg]
  simp [t.line.nonempty, t.column.nonempty, hblank, hbar, hcolumn]

theorem ofText?_token (t : Token) :
    Mention.ofText? t.text =
      some ⟨t.dependency.map (·.digits), t.line.digits, t.tag, t.column.digits⟩ := by
  unfold Mention.ofText? Token.text
  cases t.dependency with
  | none =>
    obtain ⟨hdecimal, -, hbar⟩ := tag_plain t.tag_mem
    have hline := span_append (r := t.tag :: t.column.digits) t.line.decimal fun c hc => by
      cases hc
      exact hdecimal
    rw [Option.elim_none, List.nil_append, hline.2]
    split
    next heq => exact absurd (List.cons.inj heq).1 hbar
    next => exact afterIndex?_written none t
  | some i =>
    have hindex := span_append (r := '|' :: (t.line.digits ++ t.tag :: t.column.digits)) i.decimal
      fun c hc => by
        cases hc
        decide
    rw [Option.elim_some, List.append_assoc, List.singleton_append]
    simp only [hindex.1, hindex.2, List.isEmpty_eq_false_iff.2 i.nonempty]
    exact afterIndex?_written (some i.digits) t

end Crossref.Artifact
