import SchemaLoom.Text.Blank
import SchemaLoom.Text.Digit

/-!
Whole numbers as text: decimal digits of any script, single underscores between them, a sign in
front and blanks around. Numbers of more than 4300 digits are refused.
-/
namespace SchemaLoom.Number

/-- The longest number that is read or written, in digits. -/
def digitLimit : Nat := 4300

/-- Blanks that may stand around a number: the information separators of ASCII are none of them. -/
def isPadding (c : Char) : Bool :=
  (9 ≤ c.toNat && c.toNat ≤ 13) || c == ' ' || (128 ≤ c.toNat && Text.isBlank c)

/-- Digits with single underscores between them. `afterDigit` says that the last character was a
digit. -/
def digitsAfter (afterDigit : Bool) : List Char → Option (List Nat)
  | [] => if afterDigit then some [] else none
  | '_' :: rest => if afterDigit then digitsAfter false rest else none
  | c :: rest => do
    let d ← Text.digitValue? c
    let ds ← digitsAfter true rest
    return d :: ds

/-- The number that decimal digits stand for, most significant first. -/
def ofDigits (ds : List Nat) : Nat := ds.foldl (fun n d => 10 * n + d) 0

def magnitude? (cs : List Char) : Option Nat :=
  match digitsAfter false cs with
  | some ds => if ds.length ≤ digitLimit then some (ofDigits ds) else none
  | none => none

def signed? : List Char → Option Int
  | '-' :: rest => (magnitude? rest).map fun n => -(n : Int)
  | '+' :: rest => (magnitude? rest).map fun n => (n : Int)
  | cs => (magnitude? cs).map fun n => (n : Int)

def ofText? (s : String) : Option Int := signed? (Text.trimBy isPadding s.toList)

def natText (n : Nat) : String := String.ofList (Nat.toDigits 10 n)

def text (n : Int) : String :=
  match n with
  | .ofNat n => natText n
  | .negSucc n => String.ofList ('-' :: Nat.toDigits 10 (n + 1))

/-- A number can be written: it has no more digits than the limit. -/
def IsWritable (n : Int) : Prop := (Nat.toDigits 10 n.natAbs).length ≤ digitLimit

instance (n : Int) : Decidable (IsWritable n) := Nat.decLe _ _

example : ofText? " -1_000\n" = some (-1000) := by decide +kernel
example : ofText? "1__0" = none ∧ ofText? "_1" = none ∧ ofText? "+ 1" = none ∧
    ofText? "" = none := by
  decide +kernel

end SchemaLoom.Number
