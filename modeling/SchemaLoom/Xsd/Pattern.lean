import SchemaLoom.Number.Integer

/-!
Patterns of schemas: which texts are regular expressions. A pattern is made of branches, a branch of
atoms with quantifiers; an atom is a character, an escape, a class in brackets or a pattern in
parentheses.
-/
namespace SchemaLoom.Xsd.Pattern

/-- Characters that stand for something else than themselves. -/
def isReserved (c : Char) : Bool := ".\\?*+()|[]".toList.contains c

/-- Characters that an escape makes stand for themselves, and the letters of line ends and tabs. -/
def isEscapable (c : Char) : Bool := "nrt\\|.?*+()\x7b\x7d-[]^!\"#$%,/:;=>@~\x60".toList.contains c

def isClassLetter (c : Char) : Bool := "sSiIcCdDwW".toList.contains c

/-- The character that an escape inside of a range stands for. -/
def rangeEscape? (c : Char) : Option Char :=
  match c with
  | 'n' => some '\n'
  | 'r' => some '\r'
  | 't' => some '\t'
  | c => if "\\|.-^?*+\x7b\x7d()[]".toList.contains c then some c else none

def refinements (category : Char) : List Char :=
  match category with
  | 'L' => "ultmo".toList
  | 'M' => "nce".toList
  | 'N' => "dlo".toList
  | 'P' => "cdseifo".toList
  | 'Z' => "slp".toList
  | 'S' => "mcko".toList
  | 'C' => "cfon".toList
  | _ => []

/-- What follows the name of a property and its closing brace. -/
def property? (cs : List Char) : Option (List Char) :=
  let close : List Char → Option (List Char)
    | '\x7d' :: rest => some rest
    | _ => none
  match cs with
  | 'I' :: 's' :: rest =>
    let isBlockChar (c : Char) : Bool := (c.toNat < 128 && c.isAlphanum) || c == '-'
    if rest.head?.any isBlockChar then close (rest.dropWhile isBlockChar) else none
  | c :: rest =>
    if (refinements c).isEmpty then none
    else
      match rest with
      | d :: more => if (refinements c).contains d then close more else close rest
      | [] => none
  | [] => none

def escape? : List Char → Option (List Char)
  | c :: rest =>
    if c == 'p' || c == 'P' then
      match rest with
      | '\x7b' :: rest => property? rest
      | _ => none
    else if isEscapable c || isClassLetter c then some rest
    else none
  | [] => none

/-- Characters that no class begins or ends a range with. -/
def isBracket (c : Char) : Bool := c == '[' || c == ']'

/-- The last character of a range and what follows, its first character being known. -/
def rangeEnd? (first : Char) : List Char → Option (Char × List Char)
  | '\\' :: c :: rest => do
    let last ← rangeEscape? c
    if last < first then none else some (c, rest)
  | c :: rest => if isBracket c || c == '\\' || c < first then none else some (c, rest)
  | [] => none

/-- One part of a class: an escape, a character or a range. The answer has the last character read
and what follows. -/
def classPart? (before : Char) : List Char → Option (Char × List Char)
  | '\\' :: rest => do
    let after ← escape? rest
    some ((rest.take (rest.length - after.length)).getLast?.getD '\\', after)
  | c :: rest =>
    if isBracket c then none
    else if c == '-' && rest.head? != some ']' && !(before == '[' || before == '^') then
      some (c, rest)
    else
      match rest with
      | '-' :: d :: more => if isBracket d then some (c, rest) else rangeEnd? c (d :: more)
      | ['-'] => none
      | _ => some (c, rest)
  | [] => none

mutual
/-- What follows the parts of a class; the closing bracket is not read. -/
def classParts? : Nat → Char → List Char → Option (List Char)
  | 0, _, _ => none
  | fuel + 1, before, cs =>
    match cs with
    | ']' :: _ => some cs
    | '-' :: '[' :: rest =>
      match classBody? fuel rest with
      | some (']' :: rest) => some rest
      | _ => none
    | cs =>
      match classPart? before cs with
      | some (last, rest) => classParts? fuel last rest
      | none => none
/-- What follows the body of a class, which a caret in front negates. -/
def classBody? : Nat → List Char → Option (List Char)
  | 0, _ => none
  | fuel + 1, cs =>
    match cs with
    | '^' :: rest =>
      match classPart? '^' rest with
      | some (last, rest) => classParts? fuel last rest
      | none => none
    | cs => classParts? fuel '[' cs
end

def countLimit : Nat := 2147483647

def quantity? (cs : List Char) : Option (List Char) :=
  let digits := cs.takeWhile Char.isDigit
  let value := Number.ofDigits (digits.map fun c => c.toNat - 48)
  if digits.isEmpty || countLimit < value then none else some (cs.drop digits.length)

/-- What follows a quantifier, if there is one. -/
def quantifier? : List Char → Option (List Char)
  | '?' :: rest => some rest
  | '*' :: rest => some rest
  | '+' :: rest => some rest
  | '\x7b' :: rest => do
    let close : List Char → Option (List Char)
      | '\x7d' :: rest => some rest
      | _ => none
    match ← quantity? rest with
    | ',' :: '\x7d' :: rest => some rest
    | ',' :: rest => close (← quantity? rest)
    | rest => close rest
  | cs => some cs

mutual
def branches? : Nat → List Char → Option (List Char)
  | 0, _ => none
  | fuel + 1, cs =>
    match atoms? fuel cs with
    | some ('|' :: rest) => branches? fuel rest
    | r => r
def atoms? : Nat → List Char → Option (List Char)
  | 0, _ => none
  | fuel + 1, cs =>
    match cs with
    | [] => some []
    | '(' :: rest =>
      match branches? fuel rest with
      | some (')' :: rest) => (quantifier? rest).bind (atoms? fuel)
      | _ => none
    | '[' :: rest =>
      match classBody? (rest.length + 2) rest with
      | some (']' :: rest) => (quantifier? rest).bind (atoms? fuel)
      | _ => none
    | '\\' :: rest => ((escape? rest).bind quantifier?).bind (atoms? fuel)
    | '.' :: rest => (quantifier? rest).bind (atoms? fuel)
    | c :: rest => if isReserved c then some cs else (quantifier? rest).bind (atoms? fuel)
end

def isPattern (s : String) : Bool :=
  match branches? (2 * s.length + 2) s.toList with
  | some [] => true
  | _ => false

example : isPattern "\\d\x7b3\x7d(a|b)*[^\\s-x]" = true := by decide +kernel
example : isPattern "[" = false ∧ isPattern "a**" = false ∧ isPattern "(a" = false := by
  decide +kernel

end SchemaLoom.Xsd.Pattern
