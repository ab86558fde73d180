import SchemaLoom.JsonSchema.Draft
import SchemaLoom.Xsd.Compile

/-!
Choices that are made by name, and what is said of a name that stands for none.
-/
namespace SchemaLoom

/-- A name that is no choice; an absent one is told as `None`. -/
inductive ChoiceError where
  | mergeMode (name : Option String)
  | draft (name : Option String)
  deriving DecidableEq, Repr

def ChoiceError.message : ChoiceError → String
  | mergeMode name => "Unknown merge mode: " ++ name.getD "None"
  | draft name => "Unknown JSON schema version: " ++ name.getD "None"

def chooseMode (name : Option String) : Except ChoiceError Xsd.MergeMode :=
  match name.bind Xsd.MergeMode.ofName? with
  | some mode => .ok mode
  | none => .error (.mergeMode name)

def chooseDraft (name : Option String) : Except ChoiceError JsonSchema.Draft :=
  match name.bind JsonSchema.Draft.ofName? with
  | some draft => .ok draft
  | none => .error (.draft name)

end SchemaLoom
