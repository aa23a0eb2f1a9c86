/-!
Reading bytes as UTF-8.

Every byte that is not part of a well-formed sequence is read as one replacement character, so that
any bytes at all have a reading.
-/
namespace Abacus.Text.Utf8

/-- A sequence that has been begun: how many bytes of it have been read, how many are missing, the
least and greatest byte that may come next, and the bits gathered so far. -/
structure Partial where
  held : Nat
  missing : Nat
  least : UInt8
  greatest : UInt8
  bits : Nat
  deriving DecidableEq, Repr

inductive Lead where
  | single (c : Char)
  | sequence (started : Partial)
  | invalid
  deriving DecidableEq, Repr

def replacement : Char := '�'

/-- The bounds on the second byte rule out overlong forms, surrogates and values past U+10FFFF. -/
def lead (b : UInt8) : Lead :=
  if b < 0x80 then .single (Char.ofNat b.toNat)
  else if b < 0xc2 then .invalid
  else if b < 0xe0 then .sequence ⟨1, 1, 0x80, 0xbf, b.toNat % 0x20⟩
  else if b < 0xf0 then
    .sequence ⟨1, 2, if b = 0xe0 then 0xa0 else 0x80, if b = 0xed then 0x9f else 0xbf,
      b.toNat % 0x10⟩
  else if b < 0xf5 then
    .sequence ⟨1, 3, if b = 0xf0 then 0x90 else 0x80, if b = 0xf4 then 0x8f else 0xbf,
      b.toNat % 0x08⟩
  else .invalid

def Lead.read (rest : Option Partial → List Char) : Lead → List Char
  | .single c => c :: rest none
  | .sequence started => rest (some started)
  | .invalid => replacement :: rest none

def decodeFrom : Option Partial → List UInt8 → List Char
  | none, [] => []
  | some started, [] => List.replicate started.held replacement
  | none, b :: bytes => (lead b).read fun started => decodeFrom started bytes
  | some started, b :: bytes =>
      if started.least ≤ b ∧ b ≤ started.greatest then
        let bits := started.bits * 0x40 + b.toNat % 0x40
        if started.missing ≤ 1 then Char.ofNat bits :: decodeFrom none bytes
        else decodeFrom (some ⟨started.held + 1, started.missing - 1, 0x80, 0xbf, bits⟩) bytes
      else
        List.replicate started.held replacement ++
          (lead b).read fun next => decodeFrom next bytes

def decode (bytes : List UInt8) : List Char :=
  decodeFrom none bytes

end Abacus.Text.Utf8
