import WavePlot.Text.Hex

/-!
# Strict UTF-8

Octets are read one at a time. A character is one ASCII octet, or a leading octet and one to
three continuations; four leading octets (E0, ED, F0, F4) narrow the range of the octet that
follows them, which rules out overlong forms, surrogates and code points past U+10FFFF. A failure
names the octets of the longest start of a character that was read before it.
-/

namespace WavePlot.Text.Utf8

/-- Why octets are no text. -/
inductive Reason where
  | invalidStart
  | invalidContinuation
  | unexpectedEnd
  deriving DecidableEq, Repr

/-- Where and why octets are no text: `width` octets from `start` on, the first of them `octet`. -/
structure Failure where
  start : Nat
  width : Nat
  octet : UInt8
  reason : Reason
  deriving DecidableEq, Repr

/-- What a leading octet says: its own bits, the range of the next octet, and how many
continuations follow that one. -/
structure Lead where
  bits : Nat
  low : Nat
  high : Nat
  more : Nat

/-- The meaning of a leading octet beyond ASCII. -/
def lead? (octet : Nat) : Option Lead :=
  if octet < 0xC2 then none
  else if octet < 0xE0 then some ⟨octet - 0xC0, 0x80, 0xBF, 0⟩
  else if octet = 0xE0 then some ⟨0x0, 0xA0, 0xBF, 1⟩
  else if octet = 0xED then some ⟨0xD, 0x80, 0x9F, 1⟩
  else if octet < 0xF0 then some ⟨octet - 0xE0, 0x80, 0xBF, 1⟩
  else if octet = 0xF0 then some ⟨0x0, 0x90, 0xBF, 2⟩
  else if octet < 0xF4 then some ⟨octet - 0xF0, 0x80, 0xBF, 2⟩
  else if octet = 0xF4 then some ⟨0x4, 0x80, 0x8F, 2⟩
  else none

/-- A character of which some octets have been read. -/
structure Pending where
  start : Nat
  width : Nat
  octet : UInt8
  awaited : Lead

/-- The failure at a character that goes no further. -/
def Pending.failure (p : Pending) (reason : Reason) : Failure :=
  ⟨p.start, p.width, p.octet, reason⟩

/-- The characters of the octets from a position on, where one may have been begun. -/
def decodeFrom (position : Nat) : Option Pending → List UInt8 → Except Failure (List Char)
  | none, [] => .ok []
  | some p, [] => .error (p.failure .unexpectedEnd)
  | none, octet :: rest =>
    if octet.toNat < 0x80 then
      (decodeFrom (position + 1) none rest).map (Char.ofNat octet.toNat :: ·)
    else
      match lead? octet.toNat with
      | none => .error ⟨position, 1, octet, .invalidStart⟩
      | some lead => decodeFrom (position + 1) (some ⟨position, 1, octet, lead⟩) rest
  | some p, octet :: rest =>
    if p.awaited.low ≤ octet.toNat && octet.toNat ≤ p.awaited.high then
      let bits := p.awaited.bits * 64 + (octet.toNat - 0x80)
      match p.awaited.more with
      | 0 => (decodeFrom (position + 1) none rest).map (Char.ofNat bits :: ·)
      | more + 1 =>
        let awaited := ⟨bits, 0x80, 0xBF, more⟩
        decodeFrom (position + 1) (some { p with width := p.width + 1, awaited }) rest
    else .error (p.failure .invalidContinuation)

/-- The characters that the octets spell. -/
def decode (octets : List UInt8) : Except Failure (List Char) := decodeFrom 0 none octets

def Reason.message : Reason → String
  | .invalidStart => "invalid start byte"
  | .invalidContinuation => "invalid continuation byte"
  | .unexpectedEnd => "unexpected end of data"

/-- The octets a failure names: a single one by its value, several by their positions. -/
def Failure.place (f : Failure) : String :=
  if f.width = 1 then
    "byte 0x" ++ String.ofList (fixedHex 2 f.octet.toNat) ++ " in position " ++ toString f.start
  else
    "bytes in position " ++ toString f.start ++ "-" ++ toString (f.start + f.width - 1)

def Failure.message (f : Failure) : String :=
  "'utf-8' codec can't decode " ++ f.place ++ ": " ++ f.reason.message

end WavePlot.Text.Utf8
