import SchemaLoom.Json.Value
import SchemaLoom.Number.Decimal

/-!
JSON read from text. Numbers that are not finite have names, and of members of one name the last one
counts. A fault is told with its line, its column and its position, all in characters.
-/
namespace SchemaLoom.Json

/-- What is wrong at some character. -/
inductive Mistake where
  | noValue
  | noName
  | noColon
  | noComma
  | openString
  | controlCharacter
  | badEscape
  | badUnicodeEscape
  | moreText
  | byteOrderMark
  /-- A number has too many digits to be read. -/
  | longNumber (digits : Nat)
  deriving DecidableEq, Repr

def Mistake.message : Mistake → String
  | noValue => "Expecting value"
  | noName => "Expecting property name enclosed in double quotes"
  | noColon => "Expecting ':' delimiter"
  | noComma => "Expecting ',' delimiter"
  | openString => "Unterminated string starting at"
  | controlCharacter => "Invalid control character at"
  | badEscape => "Invalid \\escape"
  | badUnicodeEscape => "Invalid \\uXXXX escape"
  | moreText => "Extra data"
  | byteOrderMark => "Unexpected UTF-8 BOM (decode using utf-8-sig)"
  | longNumber digits =>
    "Exceeds the limit (4300 digits) for integer string conversion: value has " ++
      Number.natText digits ++ " digits; use sys.set_int_max_str_digits() to increase the limit"

/-- A mistake and how many characters are left from it on. -/
structure Fault where
  mistake : Mistake
  left : Nat
  deriving DecidableEq, Repr

/-- A fault in a text, with the place where it lies. -/
def Fault.message (f : Fault) (text : List Char) : String :=
  let index := text.length - f.left
  let front := text.take index
  let column := (front.reverse.takeWhile (· != '\n')).length + 1
  match f.mistake with
  | .longNumber _ => f.mistake.message
  | m => m.message ++ ": line " ++ Number.natText (front.count '\n' + 1) ++ " column " ++
      Number.natText column ++ " (char " ++ Number.natText index ++ ")"

def fault (m : Mistake) (rest : List Char) : Except Fault α := .error ⟨m, rest.length⟩

def isBlank (c : Char) : Bool := c == ' ' || c == '\t' || c == '\n' || c == '\r'

def skipBlanks (cs : List Char) : List Char := cs.dropWhile isBlank

def hexDigit? (c : Char) : Option Nat :=
  if c.isDigit then some (c.toNat - 48)
  else if 'a' ≤ c && c ≤ 'f' then some (c.toNat - 87)
  else if 'A' ≤ c && c ≤ 'F' then some (c.toNat - 55)
  else none

def unit? (a b c d : Char) : Option Nat := do
  return (((← hexDigit? a) * 16 + (← hexDigit? b)) * 16 + (← hexDigit? c)) * 16 + (← hexDigit? d)

/-- The character of an escape of one letter. -/
def escaped? (c : Char) : Option Char :=
  match c with
  | '"' => some '"'
  | '\\' => some '\\'
  | '/' => some '/'
  | 'b' => some (Char.ofNat 8)
  | 'f' => some (Char.ofNat 12)
  | 'n' => some '\n'
  | 'r' => some '\r'
  | 't' => some '\t'
  | _ => none

/-- The character of sixteen bits; half of a pair stands for no character. -/
def unitChar (n : Nat) : Char :=
  if 0xd800 ≤ n && n < 0xe000 then Char.ofNat 0xfffd else Char.ofNat n

/-- The second half of a pair, and what follows. It counts only if more text follows. -/
def pairedUnit? : List Char → Option (Option Nat × List Char)
  | '\\' :: 'u' :: a :: b :: c :: d :: e :: rest => some (unit? a b c d, e :: rest)
  | _ => none

/-- The text from here to the closing quote, and what follows. `start` is what was left at the
opening quote. -/
def stringFrom (start : Nat) : Nat → List Char → Except Fault (List Char × List Char)
  | 0, _ => .error ⟨.openString, start⟩
  | fuel + 1, cs =>
    let more (c : Char) (rest : List Char) : Except Fault (List Char × List Char) :=
      (stringFrom start fuel rest).map fun (text, rest) => (c :: text, rest)
    match cs with
    | [] => .error ⟨.openString, start⟩
    | '"' :: rest => .ok ([], rest)
    | '\\' :: [] => .error ⟨.openString, start⟩
    | '\\' :: 'u' :: rest =>
      match rest with
      | a :: b :: c :: d :: e :: rest' =>
        match unit? a b c d with
        | none => fault .badUnicodeEscape ('u' :: rest)
        | some n =>
          if 0xd800 ≤ n && n < 0xdc00 then
            match pairedUnit? (e :: rest') with
            | some (some low, after) =>
              if 0xdc00 ≤ low && low < 0xe000 then
                more (Char.ofNat (0x10000 + (n - 0xd800) * 0x400 + (low - 0xdc00))) after
              else more (unitChar n) (e :: rest')
            | some (none, _) => fault .badUnicodeEscape rest'
            | none => more (unitChar n) (e :: rest')
          else more (unitChar n) (e :: rest')
      | _ => fault .badUnicodeEscape ('u' :: rest)
    | '\\' :: c :: rest =>
      match escaped? c with
      | some c => more c rest
      | none => fault .badEscape ('\\' :: c :: rest)
    | c :: rest => if c.toNat < 32 then fault .controlCharacter (c :: rest) else more c rest

/-- The digits of a fraction behind its point, and what follows. -/
def fractionPart (cs : List Char) : List Char × List Char :=
  match cs with
  | '.' :: d :: rest =>
    if d.isDigit then ('.' :: d :: rest.takeWhile Char.isDigit, rest.dropWhile Char.isDigit)
    else ([], cs)
  | _ => ([], cs)

def exponentPart (cs : List Char) : List Char × List Char :=
  match cs with
  | e :: rest =>
    if e == 'e' || e == 'E' then
      let (sign, digits) := match rest with
        | '+' :: ds => (['+'], ds)
        | '-' :: ds => (['-'], ds)
        | ds => ([], ds)
      let front := digits.takeWhile Char.isDigit
      if front.isEmpty then ([], cs) else (e :: sign ++ front, digits.dropWhile Char.isDigit)
    else ([], cs)
  | [] => ([], [])

def number (cs : List Char) : Except Fault (Value × List Char) :=
  let (sign, body) := match cs with
    | '-' :: rest => (['-'], rest)
    | rest => ([], rest)
  let digits := match body with
    | '0' :: _ => ['0']
    | rest => rest.takeWhile Char.isDigit
  if digits.isEmpty then fault .noValue cs
  else
    let (part, rest) := fractionPart (body.drop digits.length)
    let (power, rest) := exponentPart rest
    if part.isEmpty && power.isEmpty then
      match Number.ofText? (String.ofList (sign ++ digits)) with
      | some n => .ok (.int n, rest)
      | none => fault (.longNumber digits.length) cs
    else
      match Number.Binary64.ofText? (String.ofList (sign ++ digits ++ part ++ power)) with
      | some x => .ok (.real x, rest)
      | none => fault .noValue cs

/-- A value that is a word, and what follows. -/
def word? (cs : List Char) : Option (Value × List Char) :=
  ([("null", Value.null), ("true", .bool true), ("false", .bool false), ("NaN", .real .nan),
    ("Infinity", .real (.infinite false)), ("-Infinity", .real (.infinite true))]).findSome?
      fun (word, v) => if word.toList.isPrefixOf cs then some (v, cs.drop word.length) else none

mutual
/-- The value that begins here, and what follows. -/
def valueFrom : Nat → List Char → Except Fault (Value × List Char)
  | 0, cs => fault .noValue cs
  | fuel + 1, cs =>
    match cs with
    | '"' :: rest =>
      (stringFrom cs.length cs.length rest).map fun (text, rest) =>
        (.string (String.ofList text), rest)
    | '[' :: rest =>
      match skipBlanks rest with
      | ']' :: rest => .ok (.array [], rest)
      | rest => (itemsFrom fuel rest).map fun (items, rest) => (.array items, rest)
    | '\x7b' :: rest =>
      match skipBlanks rest with
      | '\x7d' :: rest => .ok (.object [], rest)
      | rest =>
        (membersFrom fuel rest).map fun (members, rest) => (.object (ofMembers members), rest)
    | _ =>
      match word? cs with
      | some r => .ok r
      | none => number cs
/-- The items from here to the end of an array, and what follows. -/
def itemsFrom : Nat → List Char → Except Fault (List Value × List Char)
  | 0, cs => fault .noValue cs
  | fuel + 1, cs => do
    let (v, rest) ← valueFrom fuel cs
    match skipBlanks rest with
    | ']' :: rest => .ok ([v], rest)
    | ',' :: rest => do
      let (items, rest) ← itemsFrom fuel (skipBlanks rest)
      .ok (v :: items, rest)
    | rest => fault .noComma rest
/-- The members from here to the end of an object, and what follows. -/
def membersFrom : Nat → List Char → Except Fault (List (String × Value) × List Char)
  | 0, cs => fault .noName cs
  | fuel + 1, cs => do
    match cs with
    | '"' :: inner =>
      let (name, rest) ← stringFrom cs.length cs.length inner
      match skipBlanks rest with
      | ':' :: rest => do
        let (v, rest) ← valueFrom fuel (skipBlanks rest)
        match skipBlanks rest with
        | '\x7d' :: rest => .ok ([(String.ofList name, v)], rest)
        | ',' :: rest => do
          let (members, rest) ← membersFrom fuel (skipBlanks rest)
          .ok ((String.ofList name, v) :: members, rest)
        | rest => fault .noComma rest
      | rest => fault .noColon rest
    | _ => fault .noName cs
end

def ofChars (cs : List Char) : Except Fault Value := do
  if cs.head?.any fun c => c.toNat == 0xfeff then fault .byteOrderMark cs
  else
    let (v, rest) ← valueFrom (2 * cs.length + 2) (skipBlanks cs)
    match skipBlanks rest with
    | [] => .ok v
    | rest => fault .moreText rest

end SchemaLoom.Json
