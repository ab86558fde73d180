import SchemaLoom.Text.Quoted

/-!
What is wrong with a text of YAML: it is malformed, or a value that a tag announces is not spelled
as that tag asks, or something else ends the reading.
-/
namespace SchemaLoom.Yaml

inductive Fault where
  /-- The text is no document, or one that stands for no value. -/
  | malformed
  /-- A truth value has another name. -/
  | unknownTruth (word : String)
  | badInteger (base : Nat) (text : String)
  | longInteger (digits : Nat)
  | badFraction (text : String)
  /-- A number has no characters. -/
  | emptyNumber
  /-- A point in time has another form. -/
  | badTimeForm
  /-- A part of a point in time is out of its range. -/
  | badTimePart (message : String)
  /-- An escape stands for no character. -/
  | badCharacter
  /-- An escape is a number far too large for a character. -/
  | hugeCharacter
  | other (message : String)
  deriving DecidableEq, Repr

def Fault.message : Fault → String
  | malformed => ""
  | unknownTruth word => Text.quoted word
  | badInteger base text =>
    "invalid literal for int() with base " ++ toString base ++ ": " ++
      String.ofList ((Text.quoted text).toList.take 200)
  | longInteger digits =>
    "Exceeds the limit (4300 digits) for integer string conversion: value has " ++
      toString digits ++ " digits; use sys.set_int_max_str_digits() to increase the limit"
  | badFraction text => "could not convert string to float: " ++ Text.quoted text
  | emptyNumber => "string index out of range"
  | badTimeForm => "'NoneType' object has no attribute 'groupdict'"
  | badTimePart message => message
  | badCharacter => "chr() arg not in range(0x110000)"
  | hugeCharacter => "Python int too large to convert to C int"
  | other message => message

end SchemaLoom.Yaml
