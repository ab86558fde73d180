import SchemaLoom.Json.Value

/-!
JSON as text in ASCII: on one line without blanks, or laid out with four blanks a level. Every
character beyond ASCII is written as one or two escapes of sixteen bits.
-/
namespace SchemaLoom.Json

def unitEscape (n : Nat) : List Char :=
  let digits := Nat.toDigits 16 n
  '\\' :: 'u' :: List.replicate (4 - digits.length) '0' ++ digits

def stringChar (c : Char) : List Char :=
  let n := c.toNat
  if c == '"' then ['\\', '"']
  else if c == '\\' then ['\\', '\\']
  else if c == '\n' then ['\\', 'n']
  else if c == '\r' then ['\\', 'r']
  else if c == '\t' then ['\\', 't']
  else if n == 12 then ['\\', 'f']
  else if n == 8 then ['\\', 'b']
  else if 32 ≤ n && n ≤ 126 then [c]
  else if n < 0x10000 then unitEscape n
  else unitEscape (0xd800 + (n - 0x10000) / 0x400) ++ unitEscape (0xdc00 + (n - 0x10000) % 0x400)

def writeString (s : String) : List Char := '"' :: s.toList.flatMap stringChar ++ ['"']

/-- The text of a number with a fraction. -/
def writeReal (x : Number.Binary64) : List Char := (x.textWith "Infinity" "NaN").toList

def writeAtom : Value → List Char
  | .null => "null".toList
  | .bool true => "true".toList
  | .bool false => "false".toList
  | .int n => (Number.text n).toList
  | .real x => writeReal x
  | .string s => writeString s
  | .array _ => ['[', ']']
  | .object _ => ['\x7b', '\x7d']

mutual
def Value.compact : Value → List Char
  | .array items => '[' :: compactItems true items ++ [']']
  | .object members => '\x7b' :: compactMembers true members ++ ['\x7d']
  | v => writeAtom v
def compactItems (first : Bool) : List Value → List Char
  | [] => []
  | v :: rest => (if first then [] else [',']) ++ v.compact ++ compactItems false rest
def compactMembers (first : Bool) : List (String × Value) → List Char
  | [] => []
  | (name, v) :: rest =>
    (if first then [] else [',']) ++ writeString name ++ ':' :: v.compact ++
      compactMembers false rest
end

/-- A new line at a level of the layout. -/
def newLine (level : Nat) : List Char := '\n' :: List.replicate (4 * level) ' '

mutual
/-- A value laid out on lines, itself at some level. -/
def Value.layOut (level : Nat) : Value → List Char
  | .array [] => ['[', ']']
  | .array items => '[' :: layOutItems (level + 1) true items ++ newLine level ++ [']']
  | .object [] => ['\x7b', '\x7d']
  | .object members => '\x7b' :: layOutMembers (level + 1) true members ++ newLine level ++ ['\x7d']
  | v => writeAtom v
def layOutItems (level : Nat) (first : Bool) : List Value → List Char
  | [] => []
  | v :: rest =>
    (if first then [] else [',']) ++ newLine level ++ v.layOut level ++ layOutItems level false rest
def layOutMembers (level : Nat) (first : Bool) : List (String × Value) → List Char
  | [] => []
  | (name, v) :: rest =>
    (if first then [] else [',']) ++ newLine level ++ writeString name ++ ':' :: ' ' ::
      v.layOut level ++ layOutMembers level false rest
end

def Value.line (v : Value) : String := String.ofList v.compact

def Value.pretty (v : Value) : String := String.ofList (v.layOut 0)

end SchemaLoom.Json
