/-!
References to resources as RFC 3986 writes them: an optional scheme, an authority or a path, a query
and a fragment, all in ASCII. Only the question whether a text is such a reference is answered.
-/
namespace SchemaLoom.Uri

def isHex (c : Char) : Bool :=
  c.isDigit || ('a' ≤ c && c ≤ 'f') || ('A' ≤ c && c ≤ 'F')

def isUnreserved (c : Char) : Bool := c.isAlphanum || c == '-' || c == '.' || c == '_' || c == '~'

def isSubDelimiter (c : Char) : Bool := "!$&'()*+,;=".toList.contains c

def isHostChar (c : Char) : Bool := isUnreserved c || isSubDelimiter c

def isSegmentChar (c : Char) : Bool := isHostChar c || c == ':' || c == '@'

/-- The rest after the longest run of characters of a class and of escapes in two hexadecimal
digits. -/
def skip (p : Char → Bool) : List Char → List Char
  | '%' :: a :: b :: rest => if isHex a && isHex b then skip p rest else '%' :: a :: b :: rest
  | c :: rest => if p c then skip p rest else c :: rest
  | [] => []

/-- The rest after segments that each follow a slash. -/
def skipSegments (cs : List Char) : List Char :=
  match cs with
  | '/' :: _ => skip (fun c => isSegmentChar c || c == '/') cs
  | _ => cs

/-- The rest after the name and password in front of a host, if an at sign ends them. -/
def skipUser (cs : List Char) : List Char :=
  match skip (fun c => isHostChar c || c == ':') cs with
  | '@' :: rest => rest
  | _ => cs

/-- The rest after a host: a name, or an address in brackets. -/
def skipHost? : List Char → Option (List Char)
  | '[' :: rest =>
    match rest.dropWhile (· != ']') with
    | ']' :: rest => some rest
    | _ => none
  | cs => some (skip isHostChar cs)

/-- The rest after a port: digits whose number fits thirty-one bits. -/
def skipPort? : List Char → Option (List Char)
  | ':' :: rest =>
    let digits := rest.takeWhile Char.isDigit
    let port := digits.foldl (fun n d => 10 * n + (d.toNat - '0'.toNat)) 0
    if digits.isEmpty || port > 2147483647 then none else some (rest.dropWhile Char.isDigit)
  | cs => some cs

/-- The rest after an authority and the path below it. -/
def skipAuthority? (cs : List Char) : Option (List Char) := do
  let rest ← skipHost? (skipUser cs)
  let rest ← skipPort? rest
  return skipSegments rest

/-- The rest after a path whose first segment holds only characters of a class. -/
def skipPath? (first : Char → Bool) : List Char → Option (List Char)
  | '/' :: '/' :: rest => skipAuthority? rest
  | cs => some (skipSegments (skip first cs))

/-- Nothing is left but a query and a fragment. -/
def endsWell (cs : List Char) : Bool :=
  let inner (c : Char) : Bool := isSegmentChar c || c == '/' || c == '?'
  let rest := match cs with
    | '?' :: rest => skip inner rest
    | rest => rest
  match rest with
  | '#' :: rest => (skip (fun c => inner c || c == '[' || c == ']') rest).isEmpty
  | rest => rest.isEmpty

def isAbsolute (cs : List Char) : Bool :=
  match cs with
  | c :: rest =>
    c.isAlpha &&
    match rest.dropWhile fun c => c.isAlphanum || c == '+' || c == '-' || c == '.' with
    | ':' :: rest => (skipPath? isSegmentChar rest).any endsWell
    | _ => false
  | [] => false

/-- A reference without a scheme: its first segment holds no colon. -/
def isRelative (cs : List Char) : Bool :=
  (skipPath? (fun c => isHostChar c || c == '@') cs).any endsWell

def isReference (s : String) : Bool := isAbsolute s.toList || isRelative s.toList

example : isReference "urn:example:a" ∧ isReference "a/b?c#d" ∧ isReference "http://h:80/%20" := by
  decide +kernel
example : ¬ isReference "a b" ∧ ¬ isReference "1:b" ∧ ¬ isReference "http://h:x" ∧
    ¬ isReference "%2" := by
  decide +kernel

end SchemaLoom.Uri
