/-!
UTF-8 read strictly: no overlong form, no surrogate, nothing above U+10FFFF. A fault says which
octets are wrong and why, so that it can be reported by its position.
-/
namespace SchemaLoom.Text

/-- Why octets are no UTF-8. -/
inductive Utf8Reason where
  | invalidStart
  | invalidContinuation
  | unexpectedEnd
  deriving DecidableEq, Repr

/-- Octets at `start`, `length` of them, that are no UTF-8; `octet` is the first of them. -/
structure Utf8Fault where
  start : Nat
  length : Nat
  octet : Nat
  reason : Utf8Reason
  deriving DecidableEq, Repr

def Utf8Reason.message : Utf8Reason → String
  | invalidStart => "invalid start byte"
  | invalidContinuation => "invalid continuation byte"
  | unexpectedEnd => "unexpected end of data"

def Utf8Fault.message (f : Utf8Fault) : String :=
  let hex := Nat.toDigits 16 f.octet
  let octet := String.ofList (List.replicate (2 - hex.length) '0' ++ hex)
  let place (n : Nat) : String := String.ofList (Nat.toDigits 10 n)
  "'utf-8' codec can't decode " ++
    (if f.length ≤ 1 then "byte 0x" ++ octet ++ " in position " ++ place f.start
      else "bytes in position " ++ place f.start ++ "-" ++ place (f.start + f.length - 1)) ++
    ": " ++ f.reason.message

/-- The shape of a character by its first octet: how many octets follow, which range the second
one has, and the bits that the first contributes. -/
def utf8Lead (b : Nat) : Option (Nat × Nat × Nat × Nat) :=
  if 0xc2 ≤ b && b ≤ 0xdf then some (1, 0x80, 0xbf, b - 0xc0)
  else if b == 0xe0 then some (2, 0xa0, 0xbf, 0)
  else if b == 0xed then some (2, 0x80, 0x9f, 0xd)
  else if 0xe1 ≤ b && b ≤ 0xef then some (2, 0x80, 0xbf, b - 0xe0)
  else if b == 0xf0 then some (3, 0x90, 0xbf, 0)
  else if 0xf1 ≤ b && b ≤ 0xf3 then some (3, 0x80, 0xbf, b - 0xf0)
  else if b == 0xf4 then some (3, 0x80, 0x8f, 4)
  else none

/-- Decodes from a position. `pending` is the state inside a character: its start, first octet,
octets still owed, octets seen, the range of the next one and the bits so far. -/
def utf8Decode (position : Nat) (pending : Option (Nat × Nat × Nat × Nat × Nat × Nat × Nat)) :
    List UInt8 → Except Utf8Fault (List Char)
  | [] =>
    match pending with
    | none => .ok []
    | some (start, lead, _, seen, _, _, _) => .error ⟨start, seen, lead, .unexpectedEnd⟩
  | byte :: rest =>
    let b := byte.toNat
    match pending with
    | none =>
      if b < 0x80 then (Char.ofNat b :: ·) <$> utf8Decode (position + 1) none rest
      else
        match utf8Lead b with
        | none => .error ⟨position, 1, b, .invalidStart⟩
        | some (owed, low, high, bits) =>
          utf8Decode (position + 1) (some (position, b, owed, 1, low, high, bits)) rest
    | some (start, lead, owed, seen, low, high, bits) =>
      if low ≤ b && b ≤ high then
        let value := bits * 64 + (b - 0x80)
        if owed ≤ 1 then (Char.ofNat value :: ·) <$> utf8Decode (position + 1) none rest
        else
          utf8Decode (position + 1) (some (start, lead, owed - 1, seen + 1, 0x80, 0xbf, value)) rest
      else .error ⟨start, seen, lead, .invalidContinuation⟩

def ofUtf8 (bytes : List UInt8) : Except Utf8Fault (List Char) := utf8Decode 0 none bytes

end SchemaLoom.Text
