/-
The checksum of a file's content: its SHA-1 digest in lower-case hexadecimal digits.
-/
import Crossref.Text.Quoted
import Crossref.Text.Utf8

namespace Crossref.Digest

open Text (Bytes)

def rotateLeft (x n : UInt32) : UInt32 :=
  (x <<< n) ||| (x >>> (32 - n))

/-- A number in eight bytes, the highest first. -/
def eightBytes (n : Nat) : Bytes :=
  [56, 48, 40, 32, 24, 16, 8, 0].map fun (shift : Nat) => UInt8.ofNat (n >>> shift)

/-- The content, a one bit, zeros up to eight bytes before the end of a block, and the length in bits. -/
def pad (data : Bytes) : Bytes :=
  data ++ [0x80] ++ List.replicate ((119 - data.length % 64) % 64) 0 ++ eightBytes (8 * data.length)

def toWords : Bytes → List UInt32
  | a :: b :: c :: d :: r =>
    ((a.toUInt32 <<< 24) ||| (b.toUInt32 <<< 16) ||| (c.toUInt32 <<< 8) ||| d.toUInt32) :: toWords r
  | _ => []

def toBlocks : List UInt32 → List (List UInt32)
  | [] => []
  | w :: ws => (w :: ws.take 15) :: toBlocks (ws.drop 15)
termination_by ws => ws.length
decreasing_by simp only [List.length_drop, List.length_cons]; omega

/-- The sixteen words of a block extended to eighty. -/
def schedule (block : List UInt32) : Array UInt32 :=
  (List.range 64).foldl (fun w i =>
    w.push (rotateLeft (w.getD (i + 13) 0 ^^^ w.getD (i + 8) 0 ^^^ w.getD (i + 2) 0 ^^^ w.getD i 0) 1)) block.toArray

structure Chain where
  a : UInt32
  b : UInt32
  c : UInt32
  d : UInt32
  e : UInt32

def Chain.start : Chain :=
  ⟨0x67452301, 0xEFCDAB89, 0x98BADCFE, 0x10325476, 0xC3D2E1F0⟩

def mix (i : Nat) (b c d : UInt32) : UInt32 :=
  if i < 20 then (b &&& c) ||| (~~~b &&& d)
  else if i < 40 then b ^^^ c ^^^ d
  else if i < 60 then (b &&& c) ||| (b &&& d) ||| (c &&& d)
  else b ^^^ c ^^^ d

def roundConstant (i : Nat) : UInt32 :=
  if i < 20 then 0x5A827999 else if i < 40 then 0x6ED9EBA1 else if i < 60 then 0x8F1BBCDC else 0xCA62C1D6

def Chain.absorb (h : Chain) (block : List UInt32) : Chain :=
  let words := schedule block
  let r := (List.range 80).foldl (fun (s : Chain) i =>
    ⟨rotateLeft s.a 5 + mix i s.b s.c s.d + s.e + roundConstant i + words.getD i 0, s.a, rotateLeft s.b 30, s.c, s.d⟩) h
  ⟨h.a + r.a, h.b + r.b, h.c + r.c, h.d + r.d, h.e + r.e⟩

/-- The checksum that the store records for a file's content. -/
def checksum (data : Bytes) : String :=
  let h := (toBlocks (toWords (pad data))).foldl Chain.absorb .start
  String.ofList ([h.a, h.b, h.c, h.d, h.e].flatMap fun w => Text.hex 8 w.toNat)

end Crossref.Digest
