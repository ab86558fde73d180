import SchemaLoom.Text.CaseTable

/-!
Upper and lower case of text in full: a letter may become several characters, and a capital sigma
takes its final form at the end of a word.
-/
namespace SchemaLoom.Text

/-- The character a run moves a code point to, if one of the runs covers it. -/
def shifted? (runs : List CaseRun) (n : Nat) : Option Char :=
  (runs.find? (·.covers n)).map fun r => Char.ofNat ((n : Int) + r.shift).toNat

def upperOf (c : Char) : List Char :=
  match upperExpansions.lookup c.toNat with
  | some codes => codes.map Char.ofNat
  | none => [(shifted? upperRuns c.toNat).getD c]

/-- The lower case of one character outside of any word. -/
def lowerOf (c : Char) : List Char :=
  if c.toNat == 0x130 then [Char.ofNat 0x69, Char.ofNat 0x307]
  else [(shifted? lowerRuns c.toNat).getD c]

/-- The first character that is not case-ignorable is a cased one. -/
def meetsCased (cs : List Char) : Bool :=
  match cs.dropWhile fun c => inRanges caseIgnorableRanges c.toNat with
  | [] => false
  | c :: _ => inRanges casedRanges c.toNat

/-- Lower case of the rest of a text, the characters before it nearest first. -/
def lowerAfter (before : List Char) : List Char → List Char
  | [] => []
  | c :: rest =>
    let here :=
      if c.toNat == 0x3a3 then
        [if meetsCased before && !meetsCased rest then Char.ofNat 0x3c2 else Char.ofNat 0x3c3]
      else lowerOf c
    here ++ lowerAfter (c :: before) rest

def upper (s : String) : String := String.ofList (s.toList.flatMap upperOf)

def lower (s : String) : String := String.ofList (lowerAfter [] s.toList)

/-- Text with its first character in upper case and the rest as it is. -/
def upperFirst (s : String) : String :=
  match s.toList with
  | [] => ""
  | c :: rest => String.ofList (upperOf c ++ rest)

end SchemaLoom.Text
