import SchemaLoom.Yaml.Scalar

/-!
Tokens of YAML. Indentation is told by tokens that open and close blocks, and a key that is told
only by the colon after it gets its tokens in front once the colon is seen.
-/
namespace SchemaLoom.Yaml

inductive Token where
  | streamEnd
  | versionDirective (major minor : Nat)
  | tagDirective (handle front : String)
  | otherDirective
  | documentStart
  | documentEnd
  | blockSequenceStart
  | blockMappingStart
  | blockEnd
  | flowSequenceStart
  | flowSequenceEnd
  | flowMappingStart
  | flowMappingEnd
  | blockEntry
  | flowEntry
  | key
  | value
  | reference (name : String)
  | anchor (name : String)
  | tag (handle : Option String) (suffix : String)
  | scalar (text : String) (isPlain : Bool)
  deriving DecidableEq, Repr

/-- A place where a key may have begun: the position among the tokens where its own would go. -/
structure KeyPlace where
  position : Nat
  required : Bool
  index : Nat
  line : Nat
  column : Nat

/-- The state of reading tokens. Indentations are kept with the current one first; possible keys are
kept by the depth of brackets. -/
structure Scanner where
  cursor : Cursor
  tokens : Array Token
  flow : Nat
  indent : Int
  outer : List Int
  keyAllowed : Bool
  keys : List (Nat × KeyPlace)

namespace Scanner

def start (cs : List Char) : Scanner := ⟨.start cs, #[], 0, -1, [], true, []⟩

def push (s : Scanner) (t : Token) : Scanner := { s with tokens := s.tokens.push t }

def inFlow (s : Scanner) : Bool := 0 < s.flow

/-- Forgets a possible key at the current depth. One that is required was due. -/
def dropKey (s : Scanner) : Except Fault Scanner :=
  match s.keys.lookup s.flow with
  | some k =>
    if k.required then .error .malformed
    else .ok { s with keys := s.keys.filter (·.1 != s.flow) }
  | none => .ok s

/-- Forgets possible keys of which the colon cannot follow any more: a key stands on one line and is
not longer than 1024 characters. -/
def dropStale (s : Scanner) : Except Fault Scanner :=
  let stale (k : KeyPlace) : Bool := k.line != s.cursor.line || s.cursor.index - k.index > 1024
  if s.keys.any fun (_, k) => stale k && k.required then .error .malformed
  else .ok { s with keys := s.keys.filter fun (_, k) => !stale k }

def noteKey (s : Scanner) : Except Fault Scanner :=
  if s.keyAllowed then do
    let required := !s.inFlow && s.indent == s.cursor.column
    let s ← s.dropKey
    let c := s.cursor
    .ok { s with keys := (s.flow, ⟨s.tokens.size, required, c.index, c.line, c.column⟩) :: s.keys }
  else .ok s

/-- Closes blocks that are indented deeper than a column. -/
def unwind (column : Int) : Nat → Scanner → Scanner
  | 0, s => s
  | fuel + 1, s =>
    if s.inFlow || s.indent ≤ column then s
    else
      unwind column fuel
        { s.push .blockEnd with indent := s.outer.head?.getD (-1), outer := s.outer.tail }

def unwindTo (s : Scanner) (column : Int) : Scanner := unwind column (s.outer.length + 1) s

/-- Opens a block at a column, unless it is open already. -/
def openBlock (s : Scanner) (column : Nat) : Option Scanner :=
  if s.indent < column then some { s with indent := column, outer := s.indent :: s.outer } else none

/-- Moves over blanks, comments and line breaks. Outside of brackets a key may follow a break. -/
def skipToToken : Nat → Scanner → Scanner
  | 0, s => s
  | fuel + 1, s =>
    let c := s.cursor.skipBlanks.skipComment
    match c.lineBreak? with
    | some (_, c) =>
      skipToToken fuel { s with cursor := c, keyAllowed := s.keyAllowed || !s.inFlow }
    | none => { s with cursor := c }

end Scanner

/-! Directives, anchors and tags. -/

def number? (c : Cursor) : Option (Nat × Cursor) :=
  let digits := c.run Char.isDigit
  if digits.isEmpty then none
  else some (digits.foldl (fun n d => 10 * n + (d.toNat - 48)) 0, c.skip digits.length)

def isTagChar (c : Char) : Bool :=
  c.isAlphanum || "-;/?:@&=+$,_.!~*'()[]%".toList.contains c

/-- Octets written as escapes with a percent sign. -/
def percentOctets : Nat → List Char → Option (List UInt8 × List Char)
  | 0, _ => none
  | fuel + 1, '%' :: a :: b :: rest => do
    let n ← hexNumber? [a, b]
    let (octets, rest) ← percentOctets fuel rest
    some (n.toUInt8 :: octets, rest)
  | _, '%' :: _ => none
  | _, cs => some ([], cs)

/-- The text of a tag with its escapes resolved. -/
def unescapeTag : Nat → List Char → Option (List Char)
  | 0, _ => none
  | _, [] => some []
  | fuel + 1, '%' :: rest => do
    let (octets, rest) ← percentOctets (rest.length + 2) ('%' :: rest)
    let chars ← (Text.ofUtf8 octets).toOption
    let others ← unescapeTag fuel rest
    some (chars ++ others)
  | fuel + 1, c :: rest => (unescapeTag fuel rest).map (c :: ·)

/-- The text of a tag from here on, which is not empty. -/
def tagText (c : Cursor) : Except Fault (String × Cursor) :=
  let raw := c.run isTagChar
  match unescapeTag (raw.length + 1) raw with
  | some (ch :: cs) => .ok (String.ofList (ch :: cs), c.skip raw.length)
  | _ => .error .malformed

/-- A handle: an exclamation mark, or a name between two. -/
def tagHandle (c : Cursor) : Except Fault (String × Cursor) :=
  let name := c.next.run isNameChar
  let c' := c.next.skip name.length
  if c.here != '!' then .error .malformed
  else if c.peek 1 == ' ' then .ok ("!", c.next)
  else if c'.here == '!' then .ok (String.ofList ('!' :: name ++ ['!']), c'.next)
  else .error .malformed

/-- A directive of which the cursor stands at the percent sign. -/
def directive (c : Cursor) : Except Fault (Token × Cursor) := do
  let c := c.next
  let name := c.run isNameChar
  let c := c.skip name.length
  if name.isEmpty || !endsWord c.here then throw .malformed
  let (token, c) ← (
    if name == "YAML".toList then
      match number? c.skipBlanks with
      | some (major, c) =>
        match (if c.here == '.' then number? c.next else none) with
        | some (minor, c) =>
          if endsWord c.here then .ok (Token.versionDirective major minor, c)
          else .error .malformed
        | none => .error .malformed
      | none => .error .malformed
    else if name == "TAG".toList then do
      let (handle, c) ← tagHandle c.skipBlanks
      if c.here != ' ' then throw .malformed
      let (front, c) ← tagText c.skipBlanks
      if endsWord c.here then .ok (.tagDirective handle front, c) else .error .malformed
    else .ok (.otherDirective, c.skipRun (!isBreak ·)))
  let c ← restOfLine c
  .ok (token, c)

/-- The name after an asterisk or an ampersand. -/
def anchorName (c : Cursor) : Except Fault (String × Cursor) :=
  let name := c.next.run isNameChar
  let c := c.next.skip name.length
  if name.isEmpty then .error .malformed
  else if endsToken c.here || "?:,]\x7d%@`".toList.contains c.here then .ok (String.ofList name, c)
  else .error .malformed

/-- A tag of which the cursor stands at the exclamation mark. -/
def tagToken (c : Cursor) : Except Fault (Token × Cursor) := do
  let (token, c) ← (
    if c.peek 1 == '<' then do
      let (text, c) ← tagText (c.skip 2)
      if c.here == '>' then .ok (Token.tag none text, c.next) else .error .malformed
    else if endsToken (c.peek 1) then .ok (.tag none "!", c.next)
    else do
      let word := c.next.rest.takeWhile fun ch => !endsWord ch
      let (handle, c) ← if word.contains '!' then tagHandle c else .ok ("!", c.next)
      let (suffix, c) ← tagText c
      .ok (.tag (some handle) suffix, c))
  if endsWord c.here then .ok (token, c) else .error .malformed

/-! Tokens. -/

/-- The punctuation of brackets: opening, closing and comma. -/
def flowToken? (c : Char) : Option Token :=
  if c == '[' then some .flowSequenceStart
  else if c == ']' then some .flowSequenceEnd
  else if c == '\x7b' then some .flowMappingStart
  else if c == '\x7d' then some .flowMappingEnd
  else if c == ',' then some .flowEntry
  else none

def readFlow (s : Scanner) (t : Token) : Except Fault Scanner := do
  let c := s.cursor.next
  match t with
  | .flowSequenceStart | .flowMappingStart =>
    let s ← s.noteKey
    .ok { s.push t with cursor := c, flow := s.flow + 1, keyAllowed := true }
  | .flowEntry =>
    let s ← s.dropKey
    .ok { s.push t with cursor := c, keyAllowed := true }
  | _ =>
    let s ← s.dropKey
    if s.flow == 0 then .error .malformed
    else .ok { s.push t with cursor := c, flow := s.flow - 1, keyAllowed := false }

def readEntry (s : Scanner) : Except Fault Scanner := do
  let s ← (
    if s.inFlow then .ok s
    else if !s.keyAllowed then .error .malformed
    else
      match s.openBlock s.cursor.column with
      | some s => .ok (s.push .blockSequenceStart)
      | none => .ok s)
  let s ← { s with keyAllowed := true }.dropKey
  .ok { s.push .blockEntry with cursor := s.cursor.next }

def readKey (s : Scanner) : Except Fault Scanner := do
  let s ← (
    if s.inFlow then .ok s
    else if !s.keyAllowed then .error .malformed
    else
      match s.openBlock s.cursor.column with
      | some s => .ok (s.push .blockMappingStart)
      | none => .ok s)
  let s ← { s with keyAllowed := !s.inFlow }.dropKey
  .ok { s.push .key with cursor := s.cursor.next }

/-- Reads the colon of a value. If it makes a key of what stands before it, the tokens of the key
are put there. -/
def readValue (s : Scanner) : Except Fault Scanner := do
  match s.keys.lookup s.flow with
  | some k =>
    let s := { s with keys := s.keys.filter (·.1 != s.flow), keyAllowed := false }
    let (front, s) := match (if s.inFlow then none else s.openBlock k.column) with
      | some s => ([Token.blockMappingStart, .key], s)
      | none => ([Token.key], s)
    let tokens := (s.tokens.toList.take k.position ++ front ++
      s.tokens.toList.drop k.position).toArray
    .ok { s with tokens := tokens.push .value, cursor := s.cursor.next }
  | none =>
    let s ← (
      if s.inFlow then .ok s
      else if !s.keyAllowed then .error .malformed
      else
        match s.openBlock s.cursor.column with
        | some s => .ok (s.push .blockMappingStart)
        | none => .ok s)
    let s ← { s with keyAllowed := !s.inFlow }.dropKey
    .ok { s.push .value with cursor := s.cursor.next }

/-- Reads a token that may be a key: an alias, an anchor, a tag or a scalar. -/
def readNode (s : Scanner) (read : Cursor → Except Fault (Token × Cursor)) :
    Except Fault Scanner := do
  let s ← s.noteKey
  let (token, c) ← read s.cursor
  .ok { s.push token with cursor := c, keyAllowed := false }

def readBlock (s : Scanner) (fold : Bool) : Except Fault Scanner := do
  let s ← { s with keyAllowed := true }.dropKey
  let (text, c) ← blockScalar fold s.indent s.cursor
  .ok { s.push (.scalar (String.ofList text) false) with cursor := c }

/-- Reads a plain scalar. After a line break behind it a key may follow. -/
def readPlain (s : Scanner) : Except Fault Scanner := do
  let s ← s.noteKey
  let (text, broken, c) := plainScalar s.inFlow (s.indent + 1) s.cursor
  .ok { s.push (.scalar (String.ofList text) true) with cursor := c, keyAllowed := broken }

/-- A plain scalar may begin with a character before another. -/
def startsPlain (inFlow : Bool) (c next : Char) : Bool :=
  !(endsToken c || "-?:,[]\x7b\x7d#&*!|>'\"%@`".toList.contains c) ||
    (!endsToken next && (c == '-' || (!inFlow && (c == '?' || c == ':'))))

/-- Reads the next tokens; true at the end of the text. -/
def nextToken (s : Scanner) : Except Fault (Scanner × Bool) := do
  let s := Scanner.skipToToken (s.cursor.rest.length + 1) s
  let s ← s.dropStale
  let s := s.unwindTo s.cursor.column
  let c := s.cursor
  let ch := c.here
  let more (r : Except Fault Scanner) : Except Fault (Scanner × Bool) := r.map fun s => (s, false)
  if isEnd ch then
    let s ← (s.unwindTo (-1)).dropKey
    .ok (s.push .streamEnd, true)
  else if ch == '%' && c.column == 0 then
    let s ← (s.unwindTo (-1)).dropKey
    let (token, c) ← directive c
    .ok ({ s.push token with cursor := c, keyAllowed := false }, false)
  else if c.column == 0 && c.atDocumentMark then
    let s ← (s.unwindTo (-1)).dropKey
    let token := if ch == '-' then Token.documentStart else .documentEnd
    .ok ({ s.push token with cursor := c.skip 3, keyAllowed := false }, false)
  else
    match flowToken? ch with
    | some token => more (readFlow s token)
    | none =>
      let ends := s.inFlow || endsToken (c.peek 1)
      if ch == '-' && endsToken (c.peek 1) then more (readEntry s)
      else if ch == '?' && ends then more (readKey s)
      else if ch == ':' && ends then more (readValue s)
      else if ch == '*' then
        more (readNode s fun c => (anchorName c).map fun (name, c) => (.reference name, c))
      else if ch == '&' then
        more (readNode s fun c => (anchorName c).map fun (name, c) => (.anchor name, c))
      else if ch == '!' then more (readNode s tagToken)
      else if ch == '|' && !s.inFlow then more (readBlock s false)
      else if ch == '>' && !s.inFlow then more (readBlock s true)
      else if ch == '\'' || ch == '"' then
        more (readNode s fun c => (quotedScalar (ch == '"') c).map fun (text, c) =>
          (.scalar (String.ofList text) false, c))
      else if startsPlain s.inFlow ch (c.peek 1) then more (readPlain s)
      else .error .malformed

/-- Reads tokens to the end of the text. -/
def readTokens : Nat → Scanner → Except Fault (List Token)
  | 0, _ => .error .malformed
  | fuel + 1, s => do
    let (s, done) ← nextToken s
    if done then .ok s.tokens.toList else readTokens fuel s

/-- Characters that a text of YAML may hold. -/
def isTextChar (c : Char) : Bool :=
  let n := c.toNat
  n == 9 || n == 10 || n == 13 || (0x20 ≤ n && n ≤ 0x7e) || n == 0x85 ||
  (0xa0 ≤ n && n ≤ 0xd7ff) || (0xe000 ≤ n && n ≤ 0xfffd) || 0x10000 ≤ n

/-- The tokens of a text. A mark of the byte order in front is passed over. -/
def tokensOf (cs : List Char) : Except Fault (List Token) :=
  if !cs.all isTextChar then .error .malformed
  else
    let s := Scanner.start cs
    let s := if s.cursor.here.toNat == 0xfeff then { s with cursor := s.cursor.next } else s
    readTokens (cs.length + 2) s

end SchemaLoom.Yaml
