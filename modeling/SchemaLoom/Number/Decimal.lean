import SchemaLoom.Number.Binary64
import SchemaLoom.Number.Integer

/-!
Decimal fractions as text: digits with a point and an exponent, or one of the names of the numbers
that are not finite.
-/
namespace SchemaLoom.Number

/-- The digits in front, as values, and the rest. -/
def spanDigits (cs : List Char) : List Nat × List Char :=
  ((cs.takeWhile Char.isDigit).map fun c => c.toNat - 48, cs.dropWhile Char.isDigit)

/-- The exponent of ten that follows a number, and the rest. Without digits it is none. -/
def exponent (cs : List Char) : Int × List Char :=
  match cs with
  | e :: rest =>
    if e == 'e' || e == 'E' then
      let (negative, rest) := match rest with
        | '-' :: rest => (true, rest)
        | '+' :: rest => (false, rest)
        | rest => (false, rest)
      match spanDigits rest with
      | ([], _) => (0, cs)
      | (ds, rest) =>
        -- further digits change nothing once the number is out of range
        let n : Int := ofDigits ((ds.dropWhile (· == 0)).take 9)
        let n := if (ds.dropWhile (· == 0)).length > 9 then 1000000000 else n
        (if negative then -n else n, rest)
    else (0, cs)
  | [] => (0, cs)

/-- A magnitude without sign that takes up the whole text. -/
def fraction? (negative : Bool) (cs : List Char) : Option Binary64 :=
  let (whole, rest) := spanDigits cs
  let (part, rest) := match rest with
    | '.' :: rest => spanDigits rest
    | rest => ([], rest)
  let (power, rest) := exponent rest
  if (whole.isEmpty && part.isEmpty) || !rest.isEmpty then none
  else some (.ofDecimal negative (ofDigits (whole ++ part)) (power - part.length))

def magnitude64? (negative : Bool) (cs : List Char) : Option Binary64 :=
  let word := String.ofList (cs.map Char.toLower)
  if word == "inf" || word == "infinity" then some (.infinite negative)
  else if word == "nan" then some .nan
  else fraction? negative cs

/-- A digit of any script as the digit of ASCII. -/
def plainDigit (c : Char) : Char :=
  match Text.digitValue? c with
  | some d => Char.ofNat (48 + d)
  | none => c

/-- The number nearest to what a text spells. -/
def Binary64.ofText? (s : String) : Option Binary64 :=
  match (Text.trimBy isPadding s.toList).map plainDigit with
  | '-' :: rest => magnitude64? true rest
  | '+' :: rest => magnitude64? false rest
  | rest => magnitude64? false rest

end SchemaLoom.Number
