import CallCompiler.Text.Hex

/-!
Text as bytes. Decoding stops at the first bytes that no text can have there, and says which and why.
-/
namespace CallCompiler.Text.Utf8

inductive Cause
  | badStart
  | badContinuation
  | truncated
  deriving DecidableEq, Repr

structure Fault where
  position : Nat
  bytes : List UInt8
  cause : Cause
  deriving DecidableEq, Repr

def Cause.message : Cause → String
  | .badStart => "invalid start byte"
  | .badContinuation => "invalid continuation byte"
  | .truncated => "unexpected end of data"

def Fault.message (f : Fault) : String :=
  let place :=
    match f.bytes with
    | [b] => "byte 0x" ++ String.ofList (hex 2 b.toNat) ++ " in position " ++ toString f.position
    | bs => "bytes in position " ++ toString f.position ++ "-" ++
        toString (f.position + bs.length - 1)
  "'utf-8' codec can't decode " ++ place ++ ": " ++ f.cause.message

/-- What a first byte asks for: how many bytes follow, the range of the next, its own bits. -/
def lead? (b : UInt8) : Option (Nat × Nat × Nat × Nat) :=
  let n := b.toNat
  if n < 0x80 then some (0, 0, 0, n)
  else if n < 0xc2 then none
  else if n < 0xe0 then some (1, 0x80, 0xbf, n - 0xc0)
  else if n = 0xe0 then some (2, 0xa0, 0xbf, 0)
  else if n = 0xed then some (2, 0x80, 0x9f, 0xd)
  else if n < 0xf0 then some (2, 0x80, 0xbf, n - 0xe0)
  else if n = 0xf0 then some (3, 0x90, 0xbf, 0)
  else if n < 0xf4 then some (3, 0x80, 0xbf, n - 0xf0)
  else if n = 0xf4 then some (3, 0x80, 0x8f, 4)
  else none

/-- A character whose first bytes have been seen: they are kept in reverse. -/
structure Begun where
  seen : List UInt8
  owed : Nat
  lo : Nat
  hi : Nat
  bits : Nat

def decodeFrom (position : Nat) : Option Begun → List UInt8 → Except Fault (List Char)
  | none, [] => .ok []
  | some p, [] => .error ⟨position, p.seen.reverse, .truncated⟩
  | none, b :: rest =>
    match lead? b with
    | none => .error ⟨position, [b], .badStart⟩
    | some (0, _, _, bits) => (Char.ofNat bits :: ·) <$> decodeFrom (position + 1) none rest
    | some (owed, lo, hi, bits) => decodeFrom position (some ⟨[b], owed, lo, hi, bits⟩) rest
  | some p, b :: rest =>
    if p.lo ≤ b.toNat && b.toNat ≤ p.hi then
      let bits := p.bits * 64 + (b.toNat - 0x80)
      if p.owed ≤ 1 then
        (Char.ofNat bits :: ·) <$> decodeFrom (position + p.seen.length + 1) none rest
      else decodeFrom position (some ⟨b :: p.seen, p.owed - 1, 0x80, 0xbf, bits⟩) rest
    else .error ⟨position, p.seen.reverse, .badContinuation⟩

def decode (bytes : List UInt8) : Except Fault String :=
  String.ofList <$> decodeFrom 0 none bytes

def encodeChar (c : Char) : List UInt8 :=
  let n := c.toNat
  if n < 0x80 then [n.toUInt8]
  else if n < 0x800 then [(0xc0 + n / 64).toUInt8, (0x80 + n % 64).toUInt8]
  else if n < 0x10000 then
    [(0xe0 + n / 4096).toUInt8, (0x80 + n / 64 % 64).toUInt8, (0x80 + n % 64).toUInt8]
  else
    [(0xf0 + n / 262144).toUInt8, (0x80 + n / 4096 % 64).toUInt8, (0x80 + n / 64 % 64).toUInt8,
      (0x80 + n % 64).toUInt8]

def encode (s : String) : List UInt8 := s.toList.flatMap encodeChar

end CallCompiler.Text.Utf8
