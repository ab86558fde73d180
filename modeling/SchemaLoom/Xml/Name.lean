/-!
Names of XML: which characters they are made of, and how a qualified name splits into its two parts.
-/
namespace SchemaLoom.Xml

def isXmlChar (c : Char) : Bool :=
  let n := c.toNat
  n == 9 || n == 10 || n == 13 || (0x20 ≤ n && n ≤ 0xd7ff) || (0xe000 ≤ n && n ≤ 0xfffd) ||
  0x10000 ≤ n

def isSpace (c : Char) : Bool := c == ' ' || c == '\t' || c == '\n' || c == '\r'

/-- Characters that may begin a name, the colon apart. -/
def isNameStart (c : Char) : Bool :=
  let n := c.toNat
  c.isAlpha || c == '_' ||
  (0xc0 ≤ n && n ≤ 0x2ff && n != 0xd7 && n != 0xf7) || (0x370 ≤ n && n ≤ 0x1fff && n != 0x37e) ||
  (0x200c ≤ n && n ≤ 0x200d) || (0x2070 ≤ n && n ≤ 0x218f) || (0x2c00 ≤ n && n ≤ 0x2fef) ||
  (0x3001 ≤ n && n ≤ 0xd7ff) || (0xf900 ≤ n && n ≤ 0xfdcf) || (0xfdf0 ≤ n && n ≤ 0xfffd) ||
  (0x10000 ≤ n && n ≤ 0xeffff)

/-- Characters that may follow in a name, the colon apart. -/
def isNameChar (c : Char) : Bool :=
  let n := c.toNat
  isNameStart c || c.isDigit || c == '-' || c == '.' || n == 0xb7 || (0x300 ≤ n && n ≤ 0x36f) ||
  (0x203f ≤ n && n ≤ 0x2040)

def isPlainName : List Char → Bool
  | [] => false
  | c :: rest => isNameStart c && rest.all isNameChar

/-- A text that is a name without a colon. -/
def isPlainNameText (s : String) : Bool := isPlainName s.toList

/-- The two parts of a name with at most one colon; the first is empty where there is none. -/
def splitName? (cs : List Char) : Option (List Char × List Char) :=
  let front := cs.takeWhile (· != ':')
  match cs.dropWhile (· != ':') with
  | [] => if isPlainName front then some ([], front) else none
  | _ :: back => if isPlainName front && isPlainName back then some (front, back) else none

end SchemaLoom.Xml
