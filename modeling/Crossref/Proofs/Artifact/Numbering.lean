/-
What counts as a line of an artifact. Lines are not only the physical ones: a vertical
tab in a comment ends it as well, and what follows is read as a record. Without such
stray breaks, comments and the bodies of `A` and `W` records may say anything. The
number in a refusal counts every break, where the number of a line with a bad byte
counts line feeds alone; they are on one scale up to the first stray break.
-/
import Crossref.Proofs.Artifact.Labels
import Crossref.Proofs.Text.Bytes
import Crossref.Proofs.Text.Physical

namespace Crossref.Artifact

open Text

/-! ## Other words in the same places -/

/-- A comment, or an `A` or `W` record, and one with something else in it that is no break. -/
inductive Rewording (breaks : Char → Bool) : List Char → List Char → Prop
  | comment {s s' : List Char} (hs : ∀ c ∈ s, breaks c = false) (hs' : ∀ c ∈ s', breaks c = false) :
      Rewording breaks ('-' :: '-' :: s) ('-' :: '-' :: s')
  | other {tag : Char} {s s' : List Char} (htag : tag = 'A' ∨ tag = 'W') (hne : ∃ c ∈ s, isBlank c = false)
      (hne' : ∃ c ∈ s', isBlank c = false) (hs : ∀ c ∈ s, breaks c = false) (hs' : ∀ c ∈ s', breaks c = false) :
      Rewording breaks (tag :: ' ' :: s) (tag :: ' ' :: s')

/-- Two texts that differ in the words of comments and of `A` and `W` records, each a physical line. -/
inductive Reworded (breaks : Char → Bool) : List Char → List Char → Prop
  | refl (s : List Char) : Reworded breaks s s
  | keep (line : List Char) {s s' : List Char} (h : Reworded breaks s s') :
      Reworded breaks (line ++ '\n' :: s) (line ++ '\n' :: s')
  | line {l l' ending s s' : List Char} (hl : Rewording breaks l l') (hending : ending = ['\n'] ∨ ending = ['\r', '\n'])
      (h : Reworded breaks s s') : Reworded breaks (l ++ ending ++ s) (l' ++ ending ++ s')
  | last {l l' : List Char} (hl : Rewording breaks l l') : Reworded breaks l l'

namespace Rewording

variable {l l' : List Char}

theorem idle (h : Rewording isLineBreak l l') : IsIdle l ∧ IsIdle l' := by
  cases h with
  | comment hs hs' => exact ⟨.comment hs, .comment hs'⟩
  | other htag hne hne' hs hs' => exact ⟨.other htag hne hs, .other htag hne' hs'⟩

theorem ne_nil {breaks : Char → Bool} (h : Rewording breaks l l') : l ≠ [] ∧ l' ≠ [] := by
  cases h <;> exact ⟨nofun, nofun⟩

end Rewording

namespace Draft

variable {d : Draft} {n : Nat} {l l' line : List Char} {ls rest : List (List Char)} {u : CompilationUnit}

/-- Before the version nothing but the version is accepted. -/
theorem refuses_before_version (hversion : d.version = none) {tag : Char} (htag : tag = 'A' ∨ tag = 'W')
    (s : List Char) :
    d.readLines n ((tag :: s) :: ls) = .error (.refused (n + 1) (.expectedVersion tag) (some d.toUnit)) := by
  have hsolid : isBlank tag = false ∧ tag ≠ '-' ∧ tag ≠ 'V' := by
    rcases htag with rfl | rfl <;> decide
  have htrim := trimEnd_append_solid hsolid.1 [] s
  rw [List.nil_append, List.nil_append] at htrim
  have hrecord : ReadM.record (trimEnd (tag :: s)) d = (.error (.refused (.expectedVersion tag)), d) := by
    rw [htrim, ReadM.record.eq_def]
    dsimp only
    rw [ReadM.get_bind, hversion, if_pos (by simp [hsolid.2.2])]
    rfl
  rw [readLines_fault (isSkipped_of_solid hsolid.1 hsolid.2.1 s) hrecord]
  rfl

/-- Where a line is accepted, so is another wording of it, and neither says anything. -/
theorem accepts_reworded (hl : Rewording isLineBreak l l') (h : d.readLines n (l :: ls) = .ok u) :
    d.Accepts [l] d ∧ d.Accepts [l'] d := by
  obtain ⟨hidle, hidle'⟩ := hl.idle
  cases hl with
  | @comment s s' =>
    have hskipped (s : List Char) : isSkipped ('-' :: '-' :: s) = true := by simp [isSkipped, isComment]
    exact ⟨accepts_skipped (hskipped s), accepts_skipped (hskipped s')⟩
  | other htag =>
    cases hversion : d.version with
    | none =>
      rw [refuses_before_version hversion htag] at h
      cases h
    | some v =>
      have hsome : d.version.isSome = true := by rw [hversion]; rfl
      exact ⟨accepts_idle hsome hidle, accepts_idle hsome hidle'⟩

/-- Lines that are accepted with more behind them are accepted. -/
theorem exists_accepts_append (h : d.readLines n (ls ++ rest) = .ok u) : ∃ d', d.Accepts ls d' := by
  induction ls generalizing d n with
  | nil => exact ⟨d, fun _ _ => rfl⟩
  | cons line ls ih =>
    obtain ⟨d₁, hfirst, -⟩ := exists_accepts h
    rw [List.cons_append, hfirst.readLines_tail] at h
    obtain ⟨d₂, hsecond⟩ := ih h
    exact ⟨d₂, hfirst.trans hsecond⟩

theorem readLines_reworded {text text' : List Char} (hwords : Reworded isLineBreak text text')
    (h : d.readLines n (lines text) = .ok u) : d.readLines n (lines text') = .ok u := by
  induction hwords generalizing d n with
  | refl s => exact h
  | keep line _ ih =>
    rw [lines_append_feed] at h ⊢
    obtain ⟨d', haccepts⟩ := exists_accepts_append h
    rw [haccepts] at h ⊢
    exact ih h
  | @line l l' ending s s' hl hending _ ih =>
    have hbreaks (t : List Char) : Breaks ending t := by
      rcases hending with rfl | rfl
      · exact .single (by decide) fun hr => absurd hr (by decide)
      · exact .pair
    obtain ⟨hidle, hidle'⟩ := hl.idle
    rw [lines_cons hidle.no_break (hbreaks s)] at h
    rw [lines_cons hidle'.no_break (hbreaks s')]
    obtain ⟨haccepts, haccepts'⟩ := accepts_reworded hl h
    rw [haccepts.readLines_tail] at h
    rw [haccepts'.readLines_tail]
    exact ih h
  | @last l l' hl =>
    obtain ⟨hidle, hidle'⟩ := hl.idle
    rw [lines_single hidle.no_break hl.ne_nil.1] at h
    rw [lines_single hidle'.no_break hl.ne_nil.2]
    obtain ⟨haccepts, haccepts'⟩ := accepts_reworded hl h
    rw [haccepts.readLines_tail] at h
    rw [haccepts'.readLines_tail, h]

/-! ## Refusals -/

/-- The line is refused when those before it are read. -/
def Refuses (d : Draft) (before : List (List Char)) (line : List Char) (reason : Reason) : Prop :=
  ∃ d₁ d₂, d.Accepts before d₁ ∧ isSkipped line = false ∧
    ReadM.record (trimEnd line) d₁ = (.error (.refused reason), d₂)

/-- A refusal is about a line, and has its number, or is about a text without a version. -/
theorem readLines_eq_refused {m : Nat} {reason : Reason} {sofar : Option CompilationUnit}
    (h : d.readLines n ls = .error (.refused m reason sofar)) :
    (reason = .missingVersion ∧ m = n + ls.length) ∨
      ∃ before line after, ls = before ++ line :: after ∧ d.Refuses before line reason ∧
        m = n + before.length + 1 := by
  induction ls generalizing d n with
  | nil =>
    rw [readLines] at h
    split at h
    · cases h
      exact .inl ⟨rfl, rfl⟩
    · cases h
  | cons line ls ih =>
    rcases d.accepts_or_fault line with ⟨d', haccepts, -⟩ | ⟨hskipped, fault, d', hrecord⟩
    · rw [haccepts.readLines_tail] at h
      rcases ih h with ⟨hreason, hm⟩ | ⟨before, last, after, rfl, ⟨d₁, d₂, hbefore, hlast⟩, hm⟩
      · exact .inl ⟨hreason, by rw [hm, List.length_cons]; omega⟩
      · refine .inr ⟨line :: before, last, after, rfl, ⟨d₁, d₂, haccepts.trans hbefore, hlast⟩, ?_⟩
        rw [hm, List.length_cons]
        omega
    · rw [readLines_fault hskipped hrecord] at h
      cases fault with
      | refused r =>
        cases h
        exact .inr ⟨[], line, ls, rfl, ⟨d, d', fun _ _ => rfl, hskipped, hrecord⟩, rfl⟩
      | numeral e => cases h

end Draft

/-! ## Artifacts -/

/-- **The lines of an artifact.** They are its physical lines exactly if there is no stray break. What stands in
comments and in `A` and `W` records does not matter if no break is among it. The line of a refused record is counted
from the line feeds before it, as for a bad byte, and from the stray breaks before it. -/
theorem readBytes_by_lines (path : String) (content : Bytes) :
    (∀ e, decodeUtf8 content = .error e → e.before <+: content ∧
      readBytes path content = .error (.refused (1 + e.before.count 10) .notUtf8 none)) ∧
    ∀ text, decodeUtf8 content = .ok text →
      readBytes path content = ({ path, checksum := Digest.checksum content } : Draft).readLines 0 (lines text) ∧
      (lines text = physicalLines text ↔ strayBreaks text = 0) ∧
      (∀ u content' text', readBytes path content = .ok u → decodeUtf8 content' = .ok text' →
        Reworded isLineBreak text text' →
          readBytes path content' = .ok { u with checksum := Digest.checksum content' }) ∧
      ∀ n reason sofar, readBytes path content = .error (.refused n reason sofar) → reason ≠ .missingVersion →
        ∃ bytes rest before line after ls, content = bytes ++ rest ∧ decodeUtf8 bytes = .ok before ∧
          text = before ++ line ++ after ∧ lines text = lines before ++ line :: ls ∧
          ({ path, checksum := Digest.checksum content } : Draft).Refuses (lines before) line reason ∧
          n = 1 + bytes.count 10 + strayBreaks before := by
  refine ⟨fun e he => ⟨before_isPrefix_of_error he, ?_⟩, fun text htext =>
    ⟨?_, lines_eq_physicalLines_iff text, ?_, ?_⟩⟩
  · rw [readBytes, he, Nat.add_comm]
  · rw [readBytes, htext]
    rfl
  · intro u content' text' hu htext' hwords
    rw [readBytes, htext] at hu
    rw [readBytes, htext']
    exact readText_labelled (Draft.readLines_reworded hwords hu) (Digest.checksum content')
  · intro n reason sofar hrefused hreason
    rw [readBytes, htext] at hrefused
    rcases Draft.readLines_eq_refused hrefused with ⟨hmissing, -⟩ | ⟨ls, line, ls', hlines, hline, hn⟩
    · exact absurd hmissing hreason
    · obtain ⟨before, after, rfl, rfl, hlength⟩ := exists_before_line hlines
      rw [List.append_assoc] at htext
      obtain ⟨bytes, rest, hcontent, hbytes, hcount⟩ := exists_bytes_before htext
      refine ⟨bytes, rest, before, line, after, ls', hcontent, hbytes, rfl, hlines, hline, ?_⟩
      rw [hn, hlength, breakCount, hcount]
      omega

/-! A comment, and the same one with a form feed for its blank. -/

namespace FormFeed

/-- The bytes of characters that have one byte each. -/
def plain (s : String) : Bytes :=
  s.toList.map fun c => c.toNat.toUInt8

def first : String := "V \"1\""

def blank : String := first ++ "\n-- a b\n"

def other : String := first ++ "\n-- c\n"

def broken : String := first ++ "\n-- a\x0cb\n"

theorem decodes_blank : decodeUtf8 (plain blank) = .ok blank.toList := by decide +kernel

theorem decodes_broken : decodeUtf8 (plain broken) = .ok broken.toList := by decide +kernel

theorem readBytes_blank : ∃ u, readBytes "v.ali" (plain blank) = .ok u := by
  rw [readBytes, decodes_blank]
  exact ⟨_, rfl⟩

/-- What stands behind the form feed is read as a record, on a third line. -/
theorem readBytes_broken :
    ∃ sofar, readBytes "v.ali" (plain broken) = .error (.refused 3 (.unknownRecord 'b') sofar) := by
  rw [readBytes, decodes_broken]
  exact ⟨_, rfl⟩

/-- Other words in the comment behind the first line. -/
theorem reworded {breaks : Char → Bool} (s s' : String) (hs : s.toList.all (fun c => !breaks c) = true)
    (hs' : s'.toList.all (fun c => !breaks c) = true) :
    Reworded breaks (first.toList ++ '\n' :: ('-' :: '-' :: s.toList ++ ['\n'] ++ []))
      (first.toList ++ '\n' :: ('-' :: '-' :: s'.toList ++ ['\n'] ++ [])) :=
  .keep _ (.line (.comment (by simpa using hs) (by simpa using hs')) (.inl rfl) (.refl []))

theorem readBytes_plain :
    readBytes "v.ali" (plain (first ++ "\n") ++ [0xFF]) = .error (.refused 2 .notUtf8 none) ∧
      (∃ u, readBytes "v.ali" (plain blank) = .ok u ∧
        readBytes "v.ali" (plain other) = .ok { u with checksum := Digest.checksum (plain other) }) ∧
      ∃ bytes rest before, plain broken = bytes ++ rest ∧ decodeUtf8 bytes = .ok before ∧
        3 = 1 + bytes.count 10 + strayBreaks before := by
  obtain ⟨u, hu⟩ := readBytes_blank
  obtain ⟨sofar, hsofar⟩ := readBytes_broken
  have hbad : decodeUtf8 (plain (first ++ "\n") ++ [0xFF]) =
      .error ⟨plain (first ++ "\n"), [0xFF], .invalidStart⟩ := by decide +kernel
  have hother : decodeUtf8 (plain other) = .ok other.toList := by decide +kernel
  obtain ⟨-, -, hsame, -⟩ := (readBytes_by_lines "v.ali" (plain blank)).2 _ decodes_blank
  obtain ⟨-, -, -, hline⟩ := (readBytes_by_lines "v.ali" (plain broken)).2 _ decodes_broken
  obtain ⟨bytes, rest, before, -, -, -, hbytes, hbefore, -, -, -, hn⟩ := hline _ _ _ hsofar (by decide)
  refine ⟨((readBytes_by_lines "v.ali" _).1 _ hbad).2, ⟨u, hu, ?_⟩, bytes, rest, before, hbytes, hbefore, hn⟩
  exact hsame u _ _ hu hother (reworded " a b" " c" (by decide) (by decide))

theorem comment_broken :
    Reworded (fun c => c = '\n' || c = '\r') blank.toList broken.toList ∧
      decodeUtf8 (plain blank) = .ok blank.toList ∧ decodeUtf8 (plain broken) = .ok broken.toList ∧
      (∃ u, readBytes "v.ali" (plain blank) = .ok u) ∧
      (∃ sofar, readBytes "v.ali" (plain broken) = .error (.refused 3 (.unknownRecord 'b') sofar)) ∧
      plain broken = plain (first ++ "\n-- a\x0c") ++ plain "b\n" ∧
      1 + (plain (first ++ "\n-- a\x0c")).count 10 = 2 := by
  refine ⟨?_, decodes_blank, decodes_broken, readBytes_blank, readBytes_broken, by decide +kernel, by decide +kernel⟩
  exact reworded " a b" " a\x0cb" (by decide) (by decide)

end FormFeed

end Crossref.Artifact
