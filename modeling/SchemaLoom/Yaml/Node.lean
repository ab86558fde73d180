import SchemaLoom.Yaml.Token

/-!
Nodes of YAML: what tokens describe, every node with its tag. A scalar without a tag has the one
that its spelling asks for, and an alias stands for the node of its anchor.
-/
namespace SchemaLoom.Yaml

/-- What the tags of the common values begin with. -/
def commonTag : String := "tag:yaml.org,2002:"

inductive Node where
  | scalar (tag text : String)
  | sequence (tag : String) (items : List Node)
  | mapping (tag : String) (pairs : List (Node × Node))

def Node.tag : Node → String
  | scalar tag _ => tag
  | sequence tag _ => tag
  | mapping tag _ => tag

/-! The tags of plain scalars. -/

def isSpacedDigit (c : Char) : Bool := c.isDigit || c == '_'

def withoutSign : List Char → List Char
  | '-' :: rest => rest
  | '+' :: rest => rest
  | cs => cs

/-- Groups of sixty: a colon and a number below sixty, at least once, and what follows. -/
def sixties? (fuel : Nat) (cs : List Char) : Option (List Char) :=
  let one : Option (List Char) := match cs with
    | ':' :: a :: b :: rest =>
      if a.isDigit && a ≤ '5' && b.isDigit then some rest
      else if a.isDigit then some (b :: rest)
      else none
    | [':', a] => if a.isDigit then some [] else none
    | _ => none
  match fuel, one with
  | 0, _ => none
  | _, none => none
  | fuel + 1, some rest =>
    match sixties? fuel rest with
    | some rest => some rest
    | none => some rest

/-- Whole numbers: in base two, eight, ten, sixteen or sixty. -/
def isInteger (cs : List Char) : Bool :=
  let isBit (c : Char) : Bool := c == '0' || c == '1' || c == '_'
  let isOctal (c : Char) : Bool := ('0' ≤ c && c ≤ '7') || c == '_'
  let isHex (c : Char) : Bool := (hexValue? c).isSome || c == '_'
  match withoutSign cs with
  | ['0'] => true
  | '0' :: 'b' :: rest => !rest.isEmpty && rest.all isBit
  | '0' :: 'x' :: rest => !rest.isEmpty && rest.all isHex
  | '0' :: rest => rest.all isOctal
  | c :: rest =>
    c.isDigit && (rest.all isSpacedDigit ||
      (sixties? rest.length (rest.dropWhile isSpacedDigit)).any List.isEmpty)
  | [] => false

def isPower : List Char → Bool
  | [] => true
  | e :: sign :: digits =>
    (e == 'e' || e == 'E') && (sign == '-' || sign == '+') && !digits.isEmpty &&
      digits.all Char.isDigit
  | _ => false

/-- Fractions: with a point, with an exponent after the point, in base sixty, or not finite. -/
def isFraction (cs : List Char) : Bool :=
  let body := withoutSign cs
  let pointed := match body with
    | c :: _ =>
      c.isDigit &&
      match body.dropWhile isSpacedDigit with
      | '.' :: rest => isPower (rest.dropWhile isSpacedDigit)
      | rest =>
        match sixties? rest.length rest with
        | some ('.' :: rest) => rest.all isSpacedDigit
        | _ => false
    | [] => false
  let leading := match cs with
    | '.' :: c :: rest => c.isDigit && isPower (rest.dropWhile isSpacedDigit)
    | _ => false
  let word := String.ofList body
  pointed || leading || [".inf", ".Inf", ".INF"].contains word ||
    [".nan", ".NaN", ".NAN"].contains (String.ofList cs)

def oneOrTwo? : List Char → Option (List Char × List Char)
  | a :: b :: rest =>
    if a.isDigit && b.isDigit then some ([a, b], rest)
    else if a.isDigit then some ([a], b :: rest)
    else none
  | [a] => if a.isDigit then some ([a], []) else none
  | [] => none

/-- A fixed count of digits, and what follows. -/
def digitsOf? (n : Nat) (cs : List Char) : Option (List Char × List Char) :=
  let front := cs.take n
  if front.length == n && front.all Char.isDigit then some (front, cs.drop n) else none

/-- The parts of a point in time as they are written. -/
structure TimeText where
  year : List Char
  month : List Char
  day : List Char
  /-- Hour, minute, second and the digits of its fraction. -/
  clock : Option (List Char × List Char × List Char × List Char)
  /-- `none` without a zone; otherwise the sign, if the zone is written as an offset, its hours and
  minutes. -/
  zone : Option (Option Char × List Char × List Char)

/-- A zone at the end of a point in time. -/
def zone? (cs : List Char) : Option (Option (Option Char × List Char × List Char)) :=
  match cs.dropWhile fun c => c == ' ' || c == '\t' with
  | [] => if cs.isEmpty then some none else none
  | ['Z'] => some (some (none, [], []))
  | sign :: rest =>
    if sign == '-' || sign == '+' then
      match oneOrTwo? rest with
      | some (hours, []) => some (some (some sign, hours, []))
      | some (hours, ':' :: rest) =>
        match digitsOf? 2 rest with
        | some (minutes, []) => some (some (some sign, hours, minutes))
        | _ => none
      | _ => none
    else none

/-- A point in time: a date, or a date and a time. -/
def time? (cs : List Char) : Option TimeText := do
  let dash (cs : List Char) : Option (List Char) := match cs with
    | '-' :: rest => some rest
    | _ => none
  let colon (cs : List Char) : Option (List Char) := match cs with
    | ':' :: rest => some rest
    | _ => none
  let (year, rest) ← digitsOf? 4 cs
  let (month, rest) ← oneOrTwo? (← dash rest)
  let (day, rest) ← oneOrTwo? (← dash rest)
  if rest.isEmpty then return ⟨year, month, day, none, none⟩
  let isGap (c : Char) : Bool := c == ' ' || c == '\t'
  let rest ← match rest with
    | c :: more =>
      if c == 'T' || c == 't' then some more
      else if isGap c then some (more.dropWhile isGap)
      else none
    | [] => none
  let (hour, rest) ← oneOrTwo? rest
  let (minute, rest) ← digitsOf? 2 (← colon rest)
  let (second, rest) ← digitsOf? 2 (← colon rest)
  let (fraction, rest) := match rest with
    | '.' :: rest => (rest.takeWhile Char.isDigit, rest.dropWhile Char.isDigit)
    | rest => ([], rest)
  let zone ← zone? rest
  return ⟨year, month, day, some (hour, minute, second, fraction), zone⟩

/-- A plain scalar that stands for a point in time. A date alone has two digits for month and
day. -/
def isTime (cs : List Char) : Bool :=
  match time? cs with
  | some t => t.clock.isSome || (t.month.length == 2 && t.day.length == 2)
  | none => false

def truthWords : List String := [
  "yes", "Yes", "YES", "no", "No", "NO", "true", "True", "TRUE", "false", "False", "FALSE", "on",
  "On", "ON", "off", "Off", "OFF"]

/-- The tag that the spelling of a plain scalar asks for. A line feed at the end, as one of a block
has it, does not count. -/
def plainTag (text : String) : String :=
  let cs := text.toList
  let cs := if 1 < cs.length && cs.getLast? == some '\n' then cs.dropLast else cs
  let text := String.ofList cs
  commonTag ++
    if truthWords.contains text then "bool"
    else if isFraction cs then "float"
    else if isInteger cs then "int"
    else if text == "<<" then "merge"
    else if ["", "~", "null", "Null", "NULL"].contains text then "null"
    else if isTime cs then "timestamp"
    else if text == "=" then "value"
    else "str"

/-! Nodes of tokens. -/

/-- What is left of the tokens, the meaning of tag handles, and the nodes of anchors; an anchor
whose node is not finished has none yet. -/
structure Reading where
  tokens : List Token
  handles : List (String × String)
  anchors : List (String × Option Node)

def Reading.here (r : Reading) : Token := r.tokens.head?.getD .streamEnd

def Reading.next (r : Reading) : Reading := { r with tokens := r.tokens.tail }

def emptyNode : Node := .scalar (plainTag "") ""

/-- The tag of a scalar. Without one, or with the mark of no tag, it goes by its spelling unless
that is quoted. -/
def scalarTag (tag : Option String) (text : String) (isPlain : Bool) : String :=
  match tag with
  | none => if isPlain then plainTag text else commonTag ++ "str"
  | some "!" => plainTag text
  | some tag => tag

def collectionTag (tag : Option String) (default : String) : String :=
  match tag with
  | none => commonTag ++ default
  | some "!" => commonTag ++ default
  | some tag => tag

/-- An anchor and a tag in front of a node, in any order. -/
def properties (r : Reading) : Option String × Option (Option String × String) × Reading :=
  match r.here with
  | .anchor name =>
    let r := r.next
    match r.here with
    | .tag handle suffix => (some name, some (handle, suffix), r.next)
    | _ => (some name, none, r)
  | .tag handle suffix =>
    let r := r.next
    match r.here with
    | .anchor name => (some name, some (handle, suffix), r.next)
    | _ => (none, some (handle, suffix), r)
  | _ => (none, none, r)

def fullTag (r : Reading) : Option (Option String × String) → Except Fault (Option String)
  | none => .ok none
  | some (none, suffix) => .ok (some suffix)
  | some (some handle, suffix) =>
    match r.handles.lookup handle with
    | some front => .ok (some (front ++ suffix))
    | none => .error .malformed

def Reading.bind (r : Reading) (anchor : Option String) (n : Option Node) : Reading :=
  match anchor with
  | some name => { r with anchors := (name, n) :: r.anchors.filter (·.1 != name) }
  | none => r

/-- Whether a token ends a part of a collection, so that the part is empty. -/
abbrev Stops := Token → Bool

mutual
/-- The node from here on. `block` allows blocks, and `indentless` sequences without indentation. -/
def nodeFrom (block indentless : Bool) : Nat → Reading → Except Fault (Node × Reading)
  | 0, _ => .error .malformed
  | fuel + 1, r =>
    match r.here with
    | .reference name =>
      match r.anchors.lookup name with
      | some (some n) => .ok (n, r.next)
      | _ => .error .malformed
    | _ => do
      let (anchor, tag, r) := properties r
      let tag ← fullTag r tag
      if anchor.any fun name => (r.anchors.lookup name).isSome then throw .malformed
      let started := r.bind anchor none
      let finish (x : Node × Reading) : Except Fault (Node × Reading) :=
        .ok (x.1, x.2.bind anchor (some x.1))
      match r.here with
      | .scalar text isPlain => finish (.scalar (scalarTag tag text isPlain) text, r.next)
      | .flowSequenceStart => do
        let (items, r) ← flowItems true fuel started.next
        finish (.sequence (collectionTag tag "seq") items, r)
      | .flowMappingStart => do
        let (pairs, r) ← flowPairs true fuel started.next
        finish (.mapping (collectionTag tag "map") pairs, r)
      | .blockEntry =>
        if indentless then do
          let (items, r) ← blockItems true fuel started
          finish (.sequence (collectionTag tag "seq") items, r)
        else if anchor.isSome || tag.isSome then finish (.scalar (scalarTag tag "" true) "", r)
        else throw .malformed
      | .blockSequenceStart =>
        if block then do
          let (items, r) ← blockItems false fuel started.next
          finish (.sequence (collectionTag tag "seq") items, r)
        else if anchor.isSome || tag.isSome then finish (.scalar (scalarTag tag "" true) "", r)
        else throw .malformed
      | .blockMappingStart =>
        if block then do
          let (pairs, r) ← blockPairs fuel started.next
          finish (.mapping (collectionTag tag "map") pairs, r)
        else if anchor.isSome || tag.isSome then finish (.scalar (scalarTag tag "" true) "", r)
        else throw .malformed
      | _ =>
        if anchor.isSome || tag.isSome then finish (.scalar (scalarTag tag "" true) "", r)
        else throw .malformed
/-- The node from here on, or the empty node where the part has ended. -/
def partFrom (block indentless : Bool) (stops : Stops) : Nat → Reading →
    Except Fault (Node × Reading)
  | 0, _ => .error .malformed
  | fuel + 1, r =>
    if stops r.here then .ok (emptyNode, r) else nodeFrom block indentless fuel r
/-- The items of a sequence in a block. One without indentation ends where no hyphen follows. -/
def blockItems (indentless : Bool) : Nat → Reading → Except Fault (List Node × Reading)
  | 0, _ => .error .malformed
  | fuel + 1, r =>
    match r.here with
    | .blockEntry => do
      let stops (t : Token) : Bool := t == .blockEntry || t == .blockEnd ||
        (indentless && (t == .key || t == .value))
      let (n, r) ← partFrom true false stops fuel r.next
      let (items, r) ← blockItems indentless fuel r
      .ok (n :: items, r)
    | .blockEnd => .ok ([], if indentless then r else r.next)
    | _ => if indentless then .ok ([], r) else .error .malformed
/-- The pairs of a mapping in a block. -/
def blockPairs : Nat → Reading → Except Fault (List (Node × Node) × Reading)
  | 0, _ => .error .malformed
  | fuel + 1, r => do
    let stops (t : Token) : Bool := t == .key || t == .value || t == .blockEnd
    let value (r : Reading) : Except Fault (Node × Reading) :=
      if r.here == .value then partFrom true true stops fuel r.next else .ok (emptyNode, r)
    match r.here with
    | .key => do
      let (k, r) ← partFrom true true stops fuel r.next
      let (v, r) ← value r
      let (pairs, r) ← blockPairs fuel r
      .ok ((k, v) :: pairs, r)
    | .blockEnd => .ok ([], r.next)
    | _ => .error .malformed
/-- The items of a sequence in brackets. A pair among them is a mapping of its own. -/
def flowItems (first : Bool) : Nat → Reading → Except Fault (List Node × Reading)
  | 0, _ => .error .malformed
  | fuel + 1, r => do
    if r.here == .flowSequenceEnd then return ([], r.next)
    let r ← if first then .ok r
      else if r.here == .flowEntry then .ok r.next
      else .error .malformed
    let stops (t : Token) : Bool := t == .flowEntry || t == .flowSequenceEnd
    match r.here with
    | .flowSequenceEnd => .ok ([], r.next)
    | .key => do
      let (k, r) ← partFrom false false (fun t => t == .value || stops t) fuel r.next
      let (v, r) ← (if r.here == .value then partFrom false false stops fuel r.next
        else .ok (emptyNode, r))
      let (items, r) ← flowItems false fuel r
      .ok (.mapping (commonTag ++ "map") [(k, v)] :: items, r)
    | _ => do
      let (n, r) ← nodeFrom false false fuel r
      let (items, r) ← flowItems false fuel r
      .ok (n :: items, r)
/-- The pairs of a mapping in braces. An item alone is a key without a value. -/
def flowPairs (first : Bool) : Nat → Reading → Except Fault (List (Node × Node) × Reading)
  | 0, _ => .error .malformed
  | fuel + 1, r => do
    if r.here == .flowMappingEnd then return ([], r.next)
    let r ← if first then .ok r
      else if r.here == .flowEntry then .ok r.next
      else .error .malformed
    let stops (t : Token) : Bool := t == .flowEntry || t == .flowMappingEnd
    match r.here with
    | .flowMappingEnd => .ok ([], r.next)
    | .key => do
      let (k, r) ← partFrom false false (fun t => t == .value || stops t) fuel r.next
      let (v, r) ← (if r.here == .value then partFrom false false stops fuel r.next
        else .ok (emptyNode, r))
      let (pairs, r) ← flowPairs false fuel r
      .ok ((k, v) :: pairs, r)
    | _ => do
      let (k, r) ← nodeFrom false false fuel r
      let (pairs, r) ← flowPairs false fuel r
      .ok ((k, emptyNode) :: pairs, r)
end

def commonHandles : List (String × String) := [("!", "!"), ("!!", commonTag)]

/-- The directives in front of a document: at most one version, of the first edition, and no handle
twice. -/
def directives : Bool → List (String × String) → List Token →
    Except Fault (List (String × String) × List Token)
  | versioned, handles, .versionDirective major _ :: rest =>
    if versioned || major != 1 then .error .malformed else directives true handles rest
  | versioned, handles, .tagDirective handle front :: rest =>
    if (handles.lookup handle).isSome then .error .malformed
    else directives versioned ((handle, front) :: handles) rest
  | versioned, handles, .otherDirective :: rest => directives versioned handles rest
  | _, handles, tokens => .ok (handles, tokens)

def isDirective : Token → Bool
  | .versionDirective _ _ => true
  | .tagDirective _ _ => true
  | .otherDirective => true
  | _ => false

/-- The one document of a text; `none` where there is none. -/
def documentOf (tokens : List Token) : Except Fault (Option Node) := do
  let fuel := 4 * tokens.length + 8
  let first := tokens.head?.getD .streamEnd
  if first == .streamEnd then return none
  let (n, r) ← (
    if first == .documentStart || isDirective first then do
      let (handles, tokens) ← directives false [] tokens
      match tokens with
      | .documentStart :: tokens =>
        let stops (t : Token) : Bool :=
          t == .documentStart || t == .documentEnd || t == .streamEnd || isDirective t
        partFrom true false stops fuel ⟨tokens, handles ++ commonHandles, []⟩
      | _ => .error .malformed
    else nodeFrom true false fuel ⟨tokens, commonHandles, []⟩)
  match r.tokens.dropWhile (· == .documentEnd) with
  | .streamEnd :: _ => return some n
  | _ => throw .malformed

end SchemaLoom.Yaml
