/-!
Binary floating point of 64 bits in exact arithmetic: a finite number is a mantissa of at most 53
bits times a power of two. A quotient is rounded to the nearest number, a tie to the even mantissa,
and a number is written with the fewest digits that round back to it.
-/
namespace SchemaLoom.Number

/-- A floating-point number. The mantissa is below `2 ^ 53`; unless the exponent is `-1074` it is
at least `2 ^ 52`, so that equal numbers have one form. -/
inductive Binary64 where
  | finite (negative : Bool) (mantissa : Nat) (exponent : Int)
  | infinite (negative : Bool)
  | nan
  deriving DecidableEq, Repr

namespace Binary64

/-- Half the weight of the last place decides, and the even neighbour wins a tie. -/
def roundQuotient (num den : Nat) : Nat :=
  let q := num / den
  let r := num % den
  if 2 * r < den then q
  else if den < 2 * r then q + 1
  else if q % 2 == 0 then q else q + 1

/-- A quotient divided by a power of two, as a quotient. -/
def scaled (num den : Nat) (exponent : Int) : Nat × Nat :=
  match exponent with
  | .ofNat e => (num, den * Nat.pow 2 e)
  | .negSucc e => (num * Nat.pow 2 (e + 1), den)

/-- The exponent of the last place of the number nearest to a quotient. -/
def placeOf (num den : Nat) : Int :=
  let guess : Int := (num.log2 : Int) - (den.log2 : Int) - 52
  let (a, b) := scaled num den guess
  let fit := if a < b * Nat.pow 2 52 then guess - 1 else guess
  max fit (-1074)

/-- The number nearest to `num / den`, for a positive `den`. -/
def ofQuotient (negative : Bool) (num den : Nat) : Binary64 :=
  if num == 0 then .finite negative 0 (-1074)
  else
    let e := placeOf num den
    let (a, b) := scaled num den e
    let m := roundQuotient a b
    let (m, e) := if m == Nat.pow 2 53 then (Nat.pow 2 52, e + 1) else (m, e)
    if e > 971 then .infinite negative else .finite negative m e

/-- The number nearest to `digits * 10 ^ exponent`. Powers of ten far outside the range are not
computed. -/
def ofDecimal (negative : Bool) (digits : Nat) (exponent : Int) : Binary64 :=
  let size : Int := (Nat.toDigits 10 digits).length
  if digits == 0 then .finite negative 0 (-1074)
  else if size + exponent > 400 then .infinite negative
  else if size + exponent < -400 then .finite negative 0 (-1074)
  else
    match exponent with
    | .ofNat e => ofQuotient negative (digits * Nat.pow 10 e) 1
    | .negSucc e => ofQuotient negative digits (Nat.pow 10 (e + 1))

def ofInt (n : Int) : Binary64 := ofQuotient (n < 0) n.natAbs 1

/-- The magnitude of a finite number as a quotient. -/
def quotient (mantissa : Nat) (exponent : Int) : Nat × Nat :=
  match exponent with
  | .ofNat e => (mantissa * Nat.pow 2 e, 1)
  | .negSucc e => (mantissa, Nat.pow 2 (e + 1))

/-- The whole number that a number equals, if there is one. -/
def toInt? : Binary64 → Option Int
  | .finite s m e =>
    let (a, b) := quotient m e
    if a % b == 0 then some (if s then -((a / b : Nat) : Int) else ((a / b : Nat) : Int)) else none
  | _ => none

def toRational? : Binary64 → Option (Int × Nat)
  | .finite s m e =>
    let (a, b) := quotient m e
    some (if s then -(a : Int) else (a : Int), b)
  | _ => none

/-- Equality of values: the two zeros are equal and `nan` equals nothing. -/
def sameValue (x y : Binary64) : Bool :=
  match x, y with
  | .nan, _ => false
  | _, .nan => false
  | .finite _ 0 _, .finite _ 0 _ => true
  | a, b => a == b

def ltInt (x : Binary64) (n : Int) : Bool :=
  match x with
  | .infinite s => s
  | .nan => false
  | x => match x.toRational? with
    | some (a, b) => a < n * (b : Int)
    | none => false

def add (x y : Binary64) : Binary64 :=
  match x, y with
  | .nan, _ => .nan
  | _, .nan => .nan
  | .infinite s, .infinite t => if s == t then .infinite s else .nan
  | .infinite s, _ => .infinite s
  | _, .infinite t => .infinite t
  | .finite s m e, .finite t n f =>
    let low := min e f
    let a : Int := (if s then -1 else 1) * ((m * Nat.pow 2 (e - low).toNat : Nat) : Int)
    let b : Int := (if t then -1 else 1) * ((n * Nat.pow 2 (f - low).toNat : Nat) : Int)
    let total := a + b
    let negative := if total == 0 then s && t else decide (total < 0)
    let (num, den) := quotient total.natAbs low
    ofQuotient negative num den

def mul (x y : Binary64) : Binary64 :=
  match x, y with
  | .nan, _ => .nan
  | _, .nan => .nan
  | .infinite s, .finite t n _ => if n == 0 then .nan else .infinite (s != t)
  | .finite s m _, .infinite t => if m == 0 then .nan else .infinite (s != t)
  | .infinite s, .infinite t => .infinite (s != t)
  | .finite s m e, .finite t n f =>
    let (num, den) := quotient (m * n) (e + f)
    ofQuotient (s != t) num den

/-- The power of ten just above a quotient: the number of its digits before the point. -/
def decimalPoint (num den : Nat) : Int :=
  let guess : Int := ((Nat.toDigits 10 num).length : Int) - ((Nat.toDigits 10 den).length : Int)
  let reaches (k : Int) : Bool := match k with
    | .ofNat k => Nat.pow 10 k * den ≤ num
    | .negSucc k => den ≤ num * Nat.pow 10 (k + 1)
  if reaches guess then guess + 1 else guess

/-- Digits of a width that round back to the number, if the nearest of that width do: the digits as
a number, and the position of the point. -/
def digitsOfWidth? (m : Nat) (e : Int) (num den : Nat) (point : Int) (width : Nat) :
    Option (Nat × Int) :=
  let shift : Int := (width : Int) - point
  let (a, b) := match shift with
    | .ofNat k => (num * Nat.pow 10 k, den)
    | .negSucc k => (num, den * Nat.pow 10 (k + 1))
  let back (d : Nat) : Bool := ofDecimal false d (-shift) == .finite false m e
  let low := a / b
  let near := roundQuotient a b
  let far := if near == low then low + 1 else low
  let pick := if back near then some near else if back far then some far else none
  pick.map fun d => if d == Nat.pow 10 width then (d / 10, point + 1) else (d, point)

/-- The fewest digits that round back to a positive number, and the position of the point. -/
def shortest (m : Nat) (e : Int) : Nat × Int :=
  let (num, den) := quotient m e
  let point := decimalPoint num den
  ((List.range 17).findSome? fun k => digitsOfWidth? m e num den point (k + 1)).getD (0, 0)

def significant (n : Nat) : List Char :=
  ((Nat.toDigits 10 n).reverse.dropWhile (· == '0')).reverse

/-- Digits with the point at a position: positional from `1e-4` to below `1e16`, with at least one
digit on each side, and otherwise with an exponent of at least two digits. -/
def layOut (digits : List Char) (point : Int) : List Char :=
  let width : Int := digits.length
  if -4 < point && point ≤ 16 then
    if point ≤ 0 then '0' :: '.' :: List.replicate (-point).toNat '0' ++ digits
    else if width ≤ point then
      digits ++ List.replicate (point - width).toNat '0' ++ ['.', '0']
    else digits.take point.toNat ++ '.' :: digits.drop point.toNat
  else
    let exponent := point - 1
    let mark := if exponent < 0 then '-' else '+'
    let places := Nat.toDigits 10 exponent.natAbs
    let places := if places.length < 2 then '0' :: places else places
    let front := match digits with
      | [] => []
      | [d] => [d]
      | d :: rest => d :: '.' :: rest
    front ++ 'e' :: mark :: places

/-- The text of a number; the names of the three others are a choice of the format. -/
def textWith (infinity nan : String) (x : Binary64) : String :=
  match x with
  | .nan => nan
  | .infinite s => if s then "-" ++ infinity else infinity
  | .finite s m e =>
    let body :=
      if m == 0 then ['0', '.', '0']
      else
        let (d, point) := shortest m e
        layOut (significant d) point
    String.ofList (if s then '-' :: body else body)

/-- The text of a number on its own. -/
def text (x : Binary64) : String := textWith "inf" "nan" x

end Binary64
end SchemaLoom.Number
