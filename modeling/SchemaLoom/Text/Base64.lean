/-!
Octets written in base 64. Characters outside the alphabet are passed over, and the text ends at the
padding that completes a group of four.
-/
namespace SchemaLoom.Text

/-- The six bits that a character stands for. -/
def base64Value? (c : Char) : Option Nat :=
  let n := c.toNat
  if 65 ≤ n && n ≤ 90 then some (n - 65)
  else if 97 ≤ n && n ≤ 122 then some (n - 71)
  else if 48 ≤ n && n ≤ 57 then some (n + 4)
  else if c == '+' then some 62
  else if c == '/' then some 63
  else none

/-- Reads from a place in a group: `place` characters of it are read, `bits` are what they have left
over, and `pads` marks of padding were the last characters. -/
def base64From (place bits pads : Nat) : List Char → Option (List UInt8)
  | [] => if place == 0 then some [] else none
  | '=' :: rest =>
    if 2 ≤ place && 4 ≤ place + pads + 1 then some []
    else base64From place bits (if 2 ≤ place then pads + 1 else pads) rest
  | c :: rest =>
    match base64Value? c with
    | none => base64From place bits pads rest
    | some v =>
      let octet (low : Nat) : UInt8 := (bits * Nat.pow 2 low + v / Nat.pow 2 (6 - low)).toUInt8
      match place with
      | 0 => base64From 1 v 0 rest
      | 1 => (base64From 2 (v % 16) 0 rest).map (octet 2 :: ·)
      | 2 => (base64From 3 (v % 4) 0 rest).map (octet 4 :: ·)
      | _ => (base64From 0 0 0 rest).map (octet 6 :: ·)

def ofBase64? (cs : List Char) : Option (List UInt8) := base64From 0 0 0 cs

example : ofBase64? "TWFu\nTQ==".toList = some [77, 97, 110, 77] := by decide +kernel
example : ofBase64? "TQ".toList = none ∧ ofBase64? "=".toList = some [] := by decide +kernel

end SchemaLoom.Text
