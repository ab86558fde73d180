import SchemaLoom.Xml.Tree

/-!
Writing trees: tags, escaped text and attributes. Content is laid out with one tag a line and two
blanks a level, up to thirty levels, unless text stands in it.
-/
namespace SchemaLoom.Xml

/-- A character of an attribute value between double quotes. -/
def attributeChar (c : Char) : List Char :=
  if c == '&' then "&amp;".toList
  else if c == '<' then "&lt;".toList
  else if c == '>' then "&gt;".toList
  else if c == '"' then "&quot;".toList
  else if c == '\t' then "&#9;".toList
  else if c == '\n' then "&#10;".toList
  else if c == '\r' then "&#13;".toList
  else [c]

def textChar (c : Char) : List Char :=
  if c == '&' then "&amp;".toList
  else if c == '<' then "&lt;".toList
  else if c == '>' then "&gt;".toList
  else if c == '\r' then "&#13;".toList
  else [c]

/-- A blank, a name, and a value between double quotes. -/
def writeAttribute (name value : String) : List Char :=
  ' ' :: name.toList ++ '=' :: '"' :: value.toList.flatMap attributeChar ++ ['"']

/-- The binding of a qualifier, or of the default namespace. -/
def writeBinding (qualifier uri : String) : List Char :=
  writeAttribute (if qualifier == "" then "xmlns" else "xmlns:" ++ qualifier) uri

/-- The deepest level that is told from the one above it. -/
def layoutLimit : Nat := 30

/-- A new line for a level of the layout; nothing where content is kept as it is. -/
def newLine : Option Nat → List Char
  | none => []
  | some level => '\n' :: List.replicate (2 * min level layoutLimit) ' '

def Node.isText : Node → Bool
  | .text _ => true
  | _ => false

mutual
/-- A node at a level of the layout, or without layout. -/
def Node.write (level : Option Nat) : Node → List Char
  | .text chars => chars.toList.flatMap textChar
  | .instruction target => '<' :: '?' :: target.toList ++ ['?', '>']
  | .element tag bindings attributes content =>
    let name := tag.written.toList
    let front :=
      '<' :: name ++ bindings.flatMap (fun (qualifier, uri) => writeBinding qualifier uri) ++
      attributes.flatMap fun a => writeAttribute a.name.written a.value
    if content.isEmpty then front ++ ['/', '>']
    else
      let outer := if content.any Node.isText then none else level
      front ++ '>' :: Node.writeAll (outer.map (· + 1)) content ++ newLine outer ++
        '<' :: '/' :: name ++ ['>']
/-- Nodes one after another, each on a line of its own where there is a layout. -/
def Node.writeAll (level : Option Nat) : List Node → List Char
  | [] => []
  | n :: rest => newLine level ++ n.write level ++ Node.writeAll level rest
end

def Node.inline (n : Node) : String := String.ofList (n.write none)

def Node.pretty (n : Node) : String := String.ofList (n.write (some 0)) ++ "\n"

/-- A whole document: a declaration and its root laid out on lines. -/
def Node.document (n : Node) : String := "<?xml version='1.0' encoding='UTF-8'?>\n" ++ n.pretty

end SchemaLoom.Xml
