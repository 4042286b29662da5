/-
UTF-8: bytes to characters.

A well-formed sequence has a lead octet, which fixes its length and the range of its second octet,
and further octets 80..BF.  Decoding that must not fail puts U+FFFD in place of each maximal piece
that is not well formed: the longest beginning of a sequence, or else a single octet.
-/
namespace LogLens
namespace Utf8

/-- What a lead octet asks for: how many octets follow, and the range of the first of them. -/
structure Lead where
  following : Nat
  low : Nat
  high : Nat
  /-- The bits of the code point that the lead octet itself holds. -/
  bits : Nat

def lead? (b : Nat) : Option Lead :=
  if b < 0x80 then some ⟨0, 0, 0, b⟩
  else if b < 0xC2 then none
  else if b < 0xE0 then some ⟨1, 0x80, 0xBF, b - 0xC0⟩
  else if b = 0xE0 then some ⟨2, 0xA0, 0xBF, 0⟩
  else if b = 0xED then some ⟨2, 0x80, 0x9F, 0xD⟩
  else if b < 0xF0 then some ⟨2, 0x80, 0xBF, b - 0xE0⟩
  else if b = 0xF0 then some ⟨3, 0x90, 0xBF, 0⟩
  else if b < 0xF4 then some ⟨3, 0x80, 0xBF, b - 0xF0⟩
  else if b = 0xF4 then some ⟨3, 0x80, 0x8F, 4⟩
  else none

/-- Octets that have to follow before the code point is complete. -/
structure Pending where
  missing : Nat
  low : Nat
  high : Nat
  bits : Nat

/-- Reads the octets one by one; `none` stands for a piece that is not well formed. -/
def scan : Option Pending → List UInt8 → List (Option Char)
  | none, [] => []
  | some _, [] => [none]
  | none, b :: rest =>
    match lead? b.toNat with
    | none => none :: scan none rest
    | some ⟨0, _, _, bits⟩ => some (Char.ofNat bits) :: scan none rest
    | some ⟨n + 1, low, high, bits⟩ => scan (some ⟨n + 1, low, high, bits⟩) rest
  | some p, b :: rest =>
    let bits := p.bits * 64 + (b.toNat - 0x80)
    if p.low ≤ b.toNat ∧ b.toNat ≤ p.high then
      if p.missing ≤ 1 then some (Char.ofNat bits) :: scan none rest
      else scan (some ⟨p.missing - 1, 0x80, 0xBF, bits⟩) rest
    else none ::
      match lead? b.toNat with
      | none => none :: scan none rest
      | some ⟨0, _, _, bits⟩ => some (Char.ofNat bits) :: scan none rest
      | some ⟨n + 1, low, high, bits⟩ => scan (some ⟨n + 1, low, high, bits⟩) rest

/-- The text of the octets, with U+FFFD for what is not well formed. -/
def decodeLossy (bytes : List UInt8) : String :=
  String.ofList ((scan none bytes).map (·.getD '\uFFFD'))

/-- The text of the octets, if all of them are well formed. -/
def decode? (bytes : List UInt8) : Option String :=
  ((scan none bytes).mapM id).map String.ofList

end Utf8
end LogLens
