/-! # UTF-8

A byte sequence is read one byte at a time. Every ill-formed sequence is cut into maximal
subparts; strict reading refuses them and lossy reading shows each one as U+FFFD.
-/

namespace LoadReport.Utf8

/-- A character begun but not finished: the bits so far, how many bytes are missing, and the bounds
of the next one. -/
structure Partial where
  bits : Nat
  missing : Nat
  low : UInt8
  high : UInt8

inductive Lead where
  | single (c : Char)
  | several (p : Partial)
  | illFormed

/-- The bounds of the second byte exclude overlong forms, surrogates and values past U+10FFFF. -/
def Lead.ofByte (b : UInt8) : Lead :=
  let n := b.toNat
  if n < 0x80 then .single (Char.ofNat n)
  else if n < 0xC2 then .illFormed
  else if n < 0xE0 then .several ⟨n - 0xC0, 1, 0x80, 0xBF⟩
  else if n = 0xE0 then .several ⟨0, 2, 0xA0, 0xBF⟩
  else if n = 0xED then .several ⟨0xD, 2, 0x80, 0x9F⟩
  else if n < 0xF0 then .several ⟨n - 0xE0, 2, 0x80, 0xBF⟩
  else if n = 0xF0 then .several ⟨0, 3, 0x90, 0xBF⟩
  else if n < 0xF4 then .several ⟨n - 0xF0, 3, 0x80, 0xBF⟩
  else if n = 0xF4 then .several ⟨4, 3, 0x80, 0x8F⟩
  else .illFormed

/-- Reading at the start of a character; `none` among the characters stands for an ill-formed part.
-/
def start (b : UInt8) : List (Option Char) × Option Partial :=
  match Lead.ofByte b with
  | .single c => ([some c], none)
  | .several p => ([], some p)
  | .illFormed => ([none], none)

/-- The characters that a byte completes, and the unfinished one after it. -/
def step : Option Partial → UInt8 → List (Option Char) × Option Partial
  | none, b => start b
  | some p, b =>
    if p.low ≤ b && b ≤ p.high then
      let bits := p.bits * 64 + (b.toNat - 0x80)
      if p.missing ≤ 1 then ([some (Char.ofNat bits)], none)
      else ([], some ⟨bits, p.missing - 1, 0x80, 0xBF⟩)
    else
      let (cs, next) := start b
      (none :: cs, next)

def scan : Option Partial → List UInt8 → List (Option Char)
  | none, [] => []
  | some _, [] => [none]
  | p, b :: bs => (step p b).1 ++ scan (step p b).2 bs

def decode? (bs : List UInt8) : Option (List Char) :=
  (scan none bs).mapM id

/-- The characters of any sequence, with U+FFFD in the place of ill-formed parts. -/
def decodeLossy (bs : List UInt8) : List Char :=
  (scan none bs).map (·.getD '\uFFFD')

def encode (s : String) : List UInt8 :=
  s.toUTF8.data.toList

end LoadReport.Utf8
