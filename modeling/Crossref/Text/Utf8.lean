/-
Strict UTF-8. `decodeUtf8` refuses overlong forms, surrogates and everything above the last code point, and says where
the first bad sequence starts, how long its well-formed beginning is and what is wrong with it.
-/

namespace Crossref.Text

abbrev Bytes := List UInt8

inductive Utf8Fault where
  | invalidStart
  | invalidContinuation
  | unexpectedEnd
  deriving DecidableEq, Repr

/-- A bad sequence: the bytes before it, its own bytes, and the fault. -/
structure Utf8Error where
  before : Bytes
  sequence : Bytes
  fault : Utf8Fault
  deriving DecidableEq, Repr

/-- What a first byte announces: its own bits, the range of the second byte and the number of bytes after the second. -/
structure Utf8Lead where
  bits : Nat
  low : UInt8
  high : UInt8
  more : Nat

def Utf8Lead.of? (b : UInt8) : Option Utf8Lead :=
  if b < 0xC2 then none
  else if b < 0xE0 then some ⟨b.toNat - 0xC0, 0x80, 0xBF, 0⟩
  else if b < 0xF0 then
    some ⟨b.toNat - 0xE0, if b = 0xE0 then 0xA0 else 0x80, if b = 0xED then 0x9F else 0xBF, 1⟩
  else if b < 0xF5 then
    some ⟨b.toNat - 0xF0, if b = 0xF0 then 0x90 else 0x80, if b = 0xF4 then 0x8F else 0xBF, 2⟩
  else none

/-- Reads `n` continuation bytes; `seen` holds the bytes of the sequence so far, the latest first. -/
def continuation (seen : Bytes) (bits : Nat) : Nat → Bytes → Except (Bytes × Utf8Fault) (Char × Bytes)
  | 0, rest => .ok (Char.ofNat bits, rest)
  | _ + 1, [] => .error (seen.reverse, .unexpectedEnd)
  | n + 1, b :: rest =>
    if 0x80 ≤ b && b ≤ 0xBF then continuation (b :: seen) (bits * 64 + (b.toNat - 0x80)) n rest
    else .error (seen.reverse, .invalidContinuation)

/-- Reads one character. -/
def decodeChar (b : UInt8) (rest : Bytes) : Except (Bytes × Utf8Fault) (Char × Bytes) :=
  if b < 0x80 then .ok (Char.ofNat b.toNat, rest)
  else match Utf8Lead.of? b with
    | none => .error ([b], .invalidStart)
    | some lead =>
      match rest with
      | [] => .error ([b], .unexpectedEnd)
      | c :: rest =>
        if lead.low ≤ c && c ≤ lead.high then
          continuation [c, b] (lead.bits * 64 + (c.toNat - 0x80)) lead.more rest
        else .error ([b], .invalidContinuation)

theorem continuation_length_le {n : Nat} {seen : Bytes} {bits : Nat} {s : Bytes} {c : Char} {rest : Bytes}
    (h : continuation seen bits n s = .ok (c, rest)) : rest.length ≤ s.length := by
  induction n generalizing seen bits s with
  | zero => simp [continuation] at h; simp [h.2]
  | succ n ih =>
    cases s with
    | nil => simp [continuation] at h
    | cons b s =>
      simp only [continuation] at h
      split at h
      · have := ih h; simp; omega
      · simp at h

theorem decodeChar_length_le {b : UInt8} {s : Bytes} {c : Char} {rest : Bytes}
    (h : decodeChar b s = .ok (c, rest)) : rest.length ≤ s.length := by
  unfold decodeChar at h
  split at h
  · simp at h; simp [h.2]
  · split at h
    · simp at h
    · split at h
      · simp at h
      · split at h
        · have := continuation_length_le h; simp; omega
        · simp at h

/-- `read` holds the characters read so far, the latest first, and `all` the whole input. -/
def decodeFrom (all : Bytes) (read : List Char) (s : Bytes) : Except Utf8Error (List Char) :=
  match s with
  | [] => .ok read.reverse
  | b :: rest =>
    match h : decodeChar b rest with
    | .error (sequence, fault) => .error ⟨all.take (all.length - (rest.length + 1)), sequence, fault⟩
    | .ok (c, next) => decodeFrom all (c :: read) next
termination_by s.length
decreasing_by have := decodeChar_length_le h; simp; omega

def decodeUtf8 (s : Bytes) : Except Utf8Error (List Char) :=
  decodeFrom s [] s

def encodeUtf8 (s : String) : Bytes :=
  s.toUTF8.data.toList

def Utf8Fault.message : Utf8Fault → String
  | .invalidStart => "invalid start byte"
  | .invalidContinuation => "invalid continuation byte"
  | .unexpectedEnd => "unexpected end of data"

end Crossref.Text
