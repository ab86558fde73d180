/-!
Drafts of JSON Schema: their names, the names of their metaschemas, and where definitions stand.
-/
namespace SchemaLoom.JsonSchema

inductive Draft where
  | draft04
  | draft06
  | draft07
  | draft2019
  | draft2020
  deriving DecidableEq, Repr

namespace Draft

def all : List Draft := [draft04, draft06, draft07, draft2019, draft2020]

def name : Draft → String
  | draft04 => "draft-04"
  | draft06 => "draft-06"
  | draft07 => "draft-07"
  | draft2019 => "draft-2019-09"
  | draft2020 => "draft-2020-12"

def uri : Draft → String
  | draft04 => "http://json-schema.org/draft-04/schema#"
  | draft06 => "http://json-schema.org/draft-06/schema#"
  | draft07 => "http://json-schema.org/draft-07/schema#"
  | draft2019 => "https://json-schema.org/draft/2019-09/schema"
  | draft2020 => "https://json-schema.org/draft/2020-12/schema"

/-- The member of a schema that holds definitions; its name changed in 2019. -/
def definitionsKey : Draft → String
  | draft2019 => "$defs"
  | draft2020 => "$defs"
  | _ => "definitions"

def ofName? (name : String) : Option Draft := all.find? (·.name == name)

end Draft
end SchemaLoom.JsonSchema
