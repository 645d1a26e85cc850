/-! Reading bytes as UTF-8 text without ever failing.
Where the bytes stop being the start of a character, what was read of it becomes
one replacement character, and reading goes on at the byte that did not fit. -/

namespace ByteTape.Utf8

/-- A character of which the first bytes have been read: its code so far, how many bytes are
owed, and the range that the next one has to lie in. -/
structure Unfinished where
  code : Nat
  owed : Nat
  low : UInt8
  high : UInt8

/-- The characters read, and the one that is still incomplete. -/
structure Decoded where
  text : String
  unfinished : Option Unfinished

def replacement : Char := Char.ofNat 0xFFFD

/-- What a first byte of several promises. The second byte is narrowed where a longer form
would be read as a shorter one, as a surrogate, or beyond the last code point. -/
def lead? (byte : UInt8) : Option Unfinished :=
  let code := byte.toNat
  if 0xC2 ≤ byte ∧ byte ≤ 0xDF then some ⟨code - 0xC0, 1, 0x80, 0xBF⟩
  else if byte = 0xE0 then some ⟨0, 2, 0xA0, 0xBF⟩
  else if byte = 0xED then some ⟨0xD, 2, 0x80, 0x9F⟩
  else if 0xE1 ≤ byte ∧ byte ≤ 0xEF then some ⟨code - 0xE0, 2, 0x80, 0xBF⟩
  else if byte = 0xF0 then some ⟨0, 3, 0x90, 0xBF⟩
  else if 0xF1 ≤ byte ∧ byte ≤ 0xF3 then some ⟨code - 0xF0, 3, 0x80, 0xBF⟩
  else if byte = 0xF4 then some ⟨4, 3, 0x80, 0x8F⟩
  else none

def Decoded.start (text : String) (byte : UInt8) : Decoded :=
  if byte < 0x80 then ⟨text.push (Char.ofUInt8 byte), none⟩
  else match lead? byte with
    | some lead => ⟨text, some lead⟩
    | none => ⟨text.push replacement, none⟩

def Decoded.push (decoded : Decoded) (byte : UInt8) : Decoded :=
  match decoded.unfinished with
  | none => .start decoded.text byte
  | some pending =>
    if pending.low ≤ byte ∧ byte ≤ pending.high then
      let code := pending.code * 64 + (byte.toNat - 0x80)
      if pending.owed ≤ 1 then ⟨decoded.text.push (Char.ofNat code), none⟩
      else ⟨decoded.text, some ⟨code, pending.owed - 1, 0x80, 0xBF⟩⟩
    else .start (decoded.text.push replacement) byte

def Decoded.finish (decoded : Decoded) : String :=
  match decoded.unfinished with
  | none => decoded.text
  | some _ => decoded.text.push replacement

def decodeLossy (bytes : Array UInt8) : String :=
  (bytes.foldl Decoded.push ⟨"", none⟩).finish

end ByteTape.Utf8
