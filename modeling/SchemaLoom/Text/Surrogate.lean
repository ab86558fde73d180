import SchemaLoom.Text.Quoted

/-!
Halves of surrogate pairs. A text that is spelled with escapes may hold one that stands alone; such
a text has no octets and is none of characters, so it is kept as the numbers of its parts.
-/
namespace SchemaLoom.Text

/-- The number of half of a surrogate pair. -/
def isHalf (n : Nat) : Bool := 0xd800 ≤ n && n < 0xe000

/-- The numbers of the characters of a text. -/
def codesOf (s : String) : List Nat := s.toList.map Char.toNat

/-- Numbers as text, with an escape for each half of a surrogate pair. -/
def shownCodes (codes : List Nat) : String :=
  String.ofList (codes.flatMap fun n => if isHalf n then codeEscape n else [Char.ofNat n])

/-- Numbers as quoted text. -/
def quotedCodes (codes : List Nat) : String :=
  let q := if codes.contains 39 && !codes.contains 34 then '"' else '\''
  let spelled := codes.flatMap fun n =>
    if isHalf n then codeEscape n else quotedChar q (Char.ofNat n)
  String.ofList (q :: spelled ++ [q])

/-- Why numbers have no octets: the first of them that are halves of surrogate pairs. -/
def encodingText (codes : List Nat) : String :=
  let start := codes.findIdx isHalf
  let halves := (codes.drop start).takeWhile isHalf
  let place (n : Nat) : String := String.ofList (Nat.toDigits 10 n)
  let told := match halves with
    | [half] => " '" ++ String.ofList (codeEscape half) ++ "' in position " ++ place start
    | _ => "s in position " ++ place start ++ "-" ++ place (start + halves.length - 1)
  "'utf-8' codec can't encode character" ++ told ++ ": surrogates not allowed"

end SchemaLoom.Text
