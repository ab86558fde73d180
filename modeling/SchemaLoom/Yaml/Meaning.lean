import SchemaLoom.Number.Decimal
import SchemaLoom.Text.Base64
import SchemaLoom.Text.Case
import SchemaLoom.Yaml.Node
import SchemaLoom.Yaml.Value

/-!
What a node of YAML stands for. The tag says how the spelling is read. A text with several faults is
told by the one nearest to the root, and the first of those.
-/
namespace SchemaLoom.Yaml

open Number (Binary64)

/-! Scalars. -/

def withoutUnderscores (cs : List Char) : List Char := cs.filter (· != '_')

/-- A sign in front, and the rest. A text without characters is a fault. -/
def signOf : List Char → Except Fault (Bool × List Char)
  | [] => .error .emptyNumber
  | '-' :: rest => .ok (true, rest)
  | '+' :: rest => .ok (false, rest)
  | cs => .ok (false, cs)

/-- Digits of a base of at most sixteen. -/
def magnitudeIn? (base : Nat) (cs : List Char) : Option Nat :=
  let digit? (c : Char) : Option Nat :=
    (match Text.digitValue? c with
      | some d => some d
      | none => hexValue? c).filter (· < base)
  if cs.isEmpty then none
  else cs.foldl (fun n c => do return (← n) * base + (← digit? c)) (some 0)

/-- A whole number of a base that is a power of two. The mark of the base may stand in front
again. -/
def integerIn (base : Nat) (mark : Char) (text : List Char) : Except Fault Int :=
  let (negative, body) := match Text.trimBy Number.isPadding text with
    | '-' :: rest => (true, rest)
    | '+' :: rest => (false, rest)
    | cs => (false, cs)
  let body := match body with
    | '0' :: c :: rest => if c.toLower == mark then rest else body
    | _ => body
  match magnitudeIn? base body with
  | some n => .ok (if negative then -(n : Int) else n)
  | none => .error (.badInteger base (String.ofList text))

def integerOf (text : List Char) : Except Fault Int :=
  match Number.ofText? (String.ofList text) with
  | some n => .ok n
  | none =>
    let body := withoutSign (Text.trimBy Number.isPadding text)
    match Number.digitsAfter false body with
    | some ds => .error (.longInteger ds.length)
    | none => .error (.badInteger 10 (String.ofList text))

def colonParts (cs : List Char) : List (List Char) :=
  cs.foldr (fun c parts =>
    match parts with
    | part :: rest => if c == ':' then [] :: part :: rest else (c :: part) :: rest
    | [] => []) [[]]

def intOf (text : String) : Except Fault Int := do
  let (negative, body) ← signOf (withoutUnderscores text.toList)
  let signed (n : Int) : Int := if negative then -n else n
  match body with
  | ['0'] => return 0
  | '0' :: 'b' :: rest => return signed (← integerIn 2 'b' rest)
  | '0' :: 'x' :: rest => return signed (← integerIn 16 'x' rest)
  | '0' :: _ => return signed (← integerIn 8 'o' body)
  | [] => throw .emptyNumber
  | _ =>
    if body.contains ':' then
      let parts ← (colonParts body).mapM integerOf
      return signed (parts.foldl (fun n d => 60 * n + d) 0)
    else return signed (← integerOf body)

def fractionOf (cs : List Char) : Except Fault Binary64 :=
  match Binary64.ofText? (String.ofList cs) with
  | some x => .ok x
  | none => .error (.badFraction (String.ofList cs))

def negate : Binary64 → Binary64
  | .finite s m e => .finite (!s) m e
  | .infinite s => .infinite (!s)
  | .nan => .nan

def floatOf (text : String) : Except Fault Binary64 := do
  let (negative, body) ← signOf (Text.lower (String.ofList (withoutUnderscores text.toList))).toList
  let signed (x : Binary64) : Binary64 := if negative then negate x else x
  match String.ofList body with
  | ".inf" => return .infinite negative
  | ".nan" => return .nan
  | _ =>
    if body.contains ':' then
      let parts ← (colonParts body).mapM fractionOf
      let sum := parts.reverse.foldl (fun ((x, base) : Binary64 × Nat) d =>
        (x.add (d.mul (.ofInt base)), base * 60)) (.ofInt 0, 1)
      return signed sum.1
    else return signed (← fractionOf body)

def truthOf (text : String) : Except Fault Bool :=
  let word := Text.lower text
  if ["yes", "true", "on"].contains word then .ok true
  else if ["no", "false", "off"].contains word then .ok false
  else .error (.unknownTruth word)

def digitsValue (cs : List Char) : Nat := Number.ofDigits (cs.map fun c => c.toNat - 48)

def timeOf (text : String) : Except Fault Value :=
  let cs := text.toList
  let cs := if cs.getLast? == some '\n' then cs.dropLast else cs
  match time? cs with
  | none => .error .badTimeForm
  | some t =>
    let year := digitsValue t.year
    let month := digitsValue t.month
    let day := digitsValue t.day
    match t.clock with
    | none => (Date.make year month day).map .date
    | some (hour, minute, second, fraction) =>
      let offset : Option Int := t.zone.map fun (sign, hours, minutes) =>
        let size : Int := digitsValue hours * 60 + digitsValue minutes
        if sign == some '-' then -size else size
      let micro := digitsValue ((fraction ++ List.replicate 6 '0').take 6)
      (DateTime.make year month day (digitsValue hour) (digitsValue minute) (digitsValue second)
        micro offset).map .dateTime

def binaryOf (text : String) : Except Fault Value :=
  match Text.ofBase64? text.toList with
  | some octets =>
    if text.toList.all (·.toNat < 128) then .ok (.binary octets) else .error .malformed
  | none => .error .malformed

/-- The value of a scalar by the last part of its tag; `none` for a tag that is none of scalars. -/
def scalarOf? (kind : String) (text : String) : Option (Except Fault Value) :=
  match kind with
  | "null" => some (.ok .null)
  | "bool" => some ((truthOf text).map .bool)
  | "int" => some ((intOf text).map .int)
  | "float" => some ((floatOf text).map .float)
  | "binary" => some (binaryOf text)
  | "timestamp" => some (timeOf text)
  | "str" => some (.ok (.string text))
  | _ => none

/-! Nodes. -/

/-- A value, or the fault that is told and how deep it lies. -/
abbrev Found := Except (Nat × Fault)

/-- Both values. Of two faults the one nearer to the root is told, and of two as near the first. -/
def both (x : Found α) (y : Found β) : Found (α × β) :=
  match x, y with
  | .ok a, .ok b => .ok (a, b)
  | .error e, .ok _ => .error e
  | .ok _, .error e => .error e
  | .error e, .error f => .error (if f.1 < e.1 then f else e)

/-- The values of a list, or the fault that is told. -/
def allOf : List (Found α) → Found (List α)
  | [] => .ok []
  | x :: rest => (both x (allOf rest)).map fun (a, as) => a :: as

/-- The last part of a tag of a common value. -/
def kindOf (n : Node) : String :=
  if n.tag.startsWith commonTag then (n.tag.drop commonTag.length).toString else ""

/-- The characters of a scalar. A mapping stands in for a scalar by its key `=`. -/
def scalarText? : Node → Option String
  | .scalar _ text => some text
  | .sequence _ _ => none
  | .mapping _ pairs => go pairs
where
  go : List (Node × Node) → Option String
  | [] => none
  | (k, v) :: rest => if kindOf k == "value" then scalarText? v else go rest

/-- The value of a node by its spelling; a tag of a scalar is asked for. -/
def scalarAt (level : Nat) (kind : String) (n : Node) : Found Value :=
  match scalarText? n with
  | some text =>
    match scalarOf? kind text with
    | some r => r.mapError (level, ·)
    | none => .error (level, .malformed)
  | none => .error (level, .malformed)

/-- The value of a key. A lone `=` is text, and a collection is no key. -/
def keyAt (level : Nat) (n : Node) : Found Value :=
  scalarAt level (if kindOf n == "value" then "str" else kindOf n) n

mutual
/-- Every key `<<` of a mapping has a mapping, or a sequence of mappings, of which that holds
too. -/
def merges : List (Node × Node) → Bool
  | [] => true
  | (k, v) :: rest =>
    (kindOf k != "merge" ||
      match v with
      | .mapping _ pairs => merges pairs
      | .sequence _ items => mergesAll items
      | .scalar _ _ => false) && merges rest
def mergesAll : List Node → Bool
  | [] => true
  | n :: rest =>
    (match n with
      | .mapping _ pairs => merges pairs
      | _ => false) && mergesAll rest
end

mutual
/-- What a node stands for. Its contents lie one level deeper. -/
def valueAt (level : Nat) (n : Node) : Found Value :=
  match n with
  | .scalar tag text =>
    let kind := kindOf (.scalar tag text)
    if ["seq", "map", "set", "omap", "pairs"].contains kind then .error (level + 1, .malformed)
    else scalarAt level kind (.scalar tag text)
  | .sequence tag items =>
    match kindOf (.sequence tag []) with
    | "seq" => (valuesAt (level + 1) items).map .list
    | "omap" | "pairs" => (pairsAt (level + 1) items).map .pairs
    | "map" | "set" => .error (level + 1, .malformed)
    | _ => .error (level, .malformed)
  | .mapping tag pairs =>
    let entries : Found (List (Value × Value)) :=
      if merges pairs then
        (both (allOf (mergedEntries (level + 1) pairs)) (allOf (ownEntries (level + 1) pairs))).map
          fun (merged, own) => (merged ++ own).foldl (fun es (k, v) => Value.insert es k v) []
      else .error (level + 1, .malformed)
    let kind := kindOf (.mapping tag [])
    if kind == "map" then entries.map .mapping
    else if kind == "set" then entries.map fun es => .set (es.map (·.1))
    else if ["seq", "omap", "pairs"].contains kind then .error (level + 1, .malformed)
    else scalarAt level kind (.mapping tag pairs)
def valuesAt (level : Nat) (items : List Node) : Found (List Value) :=
  match items with
  | [] => .ok []
  | n :: rest => (both (valueAt level n) (valuesAt level rest)).map fun (v, vs) => v :: vs
/-- The pairs of a sequence whose items are mappings of one entry. -/
def pairsAt (level : Nat) (items : List Node) : Found (List (Value × Value)) :=
  match items with
  | [] => .ok []
  | .mapping _ [(k, v)] :: rest =>
    (both (both (valueAt level k) (valueAt level v)) (pairsAt level rest)).map
      fun (p, ps) => p :: ps
  | _ :: _ => .error (level, .malformed)
def mergedEntries (level : Nat) (pairs : List (Node × Node)) : List (Found (Value × Value)) :=
  match pairs with
  | [] => []
  | (k, v) :: rest =>
    (if kindOf k == "merge" then
      match v with
      | .mapping _ inner => mergedEntries level inner ++ ownEntries level inner
      | .sequence _ items => mergedItems level items
      | .scalar _ _ => []
    else []) ++ mergedEntries level rest
/-- The entries of mappings in a sequence, the last mapping first. -/
def mergedItems (level : Nat) (items : List Node) : List (Found (Value × Value)) :=
  match items with
  | [] => []
  | .mapping _ inner :: rest =>
    mergedItems level rest ++ (mergedEntries level inner ++ ownEntries level inner)
  | _ :: rest => mergedItems level rest
def ownEntries (level : Nat) (pairs : List (Node × Node)) : List (Found (Value × Value)) :=
  match pairs with
  | [] => []
  | (k, v) :: rest =>
    if kindOf k == "merge" then ownEntries level rest
    else both (keyAt level k) (valueAt level v) :: ownEntries level rest
end

/-- The value of a text; a text without a document stands for nothing. -/
def ofChars (cs : List Char) : Except Fault Value := do
  match ← documentOf (← tokensOf cs) with
  | some n => (valueAt 0 n).mapError (·.2)
  | none => return .null

end SchemaLoom.Yaml
