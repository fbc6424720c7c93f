/-! # UTF-8

Strict decoding: every byte belongs to the one shortest encoding of a Unicode scalar value,
or the first place where that fails is reported. -/

namespace LoxReader.Text.Utf8

/-- What is wrong at a place that is not UTF-8. -/
inductive FaultReason where
  /-- No character starts with this byte. -/
  | startByte
  /-- A character is not continued by the byte that follows. -/
  | continuationByte
  /-- The bytes end inside a character. -/
  | endOfData
deriving DecidableEq, Repr

/-- The first bad place of a byte sequence: `length` bytes from `position` on, of which
`first` is the first. -/
structure Fault where
  position : Nat
  length : Nat
  first : UInt8
  reason : FaultReason
deriving DecidableEq, Repr

def FaultReason.message : FaultReason → String
  | .startByte => "invalid start byte"
  | .continuationByte => "invalid continuation byte"
  | .endOfData => "unexpected end of data"

/-- The lower-case hexadecimal digits of a byte, always two. -/
def byteHex (b : UInt8) : String :=
  String.ofList [Nat.digitChar (b.toNat / 16), Nat.digitChar (b.toNat % 16)]

/-- The wording of a fault. A single byte is shown, of a longer run only the place. -/
def Fault.message (f : Fault) : String :=
  "'utf-8' codec can't decode " ++
    (if f.length = 1 then
      "byte 0x" ++ byteHex f.first ++ " in position " ++ toString f.position
    else
      "bytes in position " ++ toString f.position ++ "-" ++
        toString (f.position + f.length - 1)) ++
    ": " ++ f.reason.message

/-- A character of which some bytes are read: `seen` bytes from `position` on, the value of
their payload bits, the bytes still owed, and the range of the next one. -/
structure Partial where
  position : Nat
  first : UInt8
  seen : Nat
  value : Nat
  owed : Nat
  low : Nat
  high : Nat

/-- The fault of breaking a character off. -/
def Partial.fault (p : Partial) (reason : FaultReason) : Fault :=
  ⟨p.position, p.seen, p.first, reason⟩

/-- The start of a character of several bytes. The range of the second byte keeps out
overlong forms, surrogates and values above U+10FFFF. -/
def lead? (position : Nat) (b : UInt8) : Option Partial :=
  let n := b.toNat
  if 0xC2 ≤ n ∧ n ≤ 0xDF then some ⟨position, b, 1, n - 0xC0, 1, 0x80, 0xBF⟩
  else if n = 0xE0 then some ⟨position, b, 1, 0, 2, 0xA0, 0xBF⟩
  else if n = 0xED then some ⟨position, b, 1, 0xD, 2, 0x80, 0x9F⟩
  else if 0xE1 ≤ n ∧ n ≤ 0xEF then some ⟨position, b, 1, n - 0xE0, 2, 0x80, 0xBF⟩
  else if n = 0xF0 then some ⟨position, b, 1, 0, 3, 0x90, 0xBF⟩
  else if 0xF1 ≤ n ∧ n ≤ 0xF3 then some ⟨position, b, 1, n - 0xF0, 3, 0x80, 0xBF⟩
  else if n = 0xF4 then some ⟨position, b, 1, 4, 3, 0x80, 0x8F⟩
  else none

mutual

/-- Decodes between characters; `done` holds the characters read, latest first. -/
def decodeFrom (done : List Char) (position : Nat) : List UInt8 → Except Fault (List Char)
  | [] => .ok done.reverse
  | b :: rest =>
    if b.toNat < 0x80 then decodeFrom (Char.ofNat b.toNat :: done) (position + 1) rest
    else
      match lead? position b with
      | some p => continueFrom done p rest
      | none => .error ⟨position, 1, b, .startByte⟩

/-- Decodes inside a character. -/
def continueFrom (done : List Char) (p : Partial) : List UInt8 → Except Fault (List Char)
  | [] => .error (p.fault .endOfData)
  | b :: rest =>
    if p.low ≤ b.toNat ∧ b.toNat ≤ p.high then
      let value := p.value * 64 + (b.toNat - 0x80)
      if p.owed = 1 then
        decodeFrom (Char.ofNat value :: done) (p.position + p.seen + 1) rest
      else
        continueFrom done
          ⟨p.position, p.first, p.seen + 1, value, p.owed - 1, 0x80, 0xBF⟩ rest
    else .error (p.fault .continuationByte)

end

/-- The text that a byte sequence encodes, or its first fault. -/
def decode (bytes : List UInt8) : Except Fault (List Char) :=
  decodeFrom [] 0 bytes

end LoxReader.Text.Utf8
