/-!
Lines of text: ends of lines made alike, and text cut into its lines.
-/
namespace SchemaLoom.Text

/-- Every end of a line becomes a line feed. -/
def plainLines : List Char → List Char
  | '\r' :: '\n' :: rest => '\n' :: plainLines rest
  | '\r' :: rest => '\n' :: plainLines rest
  | c :: rest => c :: plainLines rest
  | [] => []

def cutLines : List Char → List (List Char)
  | [] => [[]]
  | c :: rest =>
    match cutLines rest with
    | line :: others => if c == '\n' then [] :: line :: others else (c :: line) :: others
    | [] => [[c]]

/-- The lines of a text, each without the line feed that ends it. Nothing follows the last line
feed. -/
def linesOf (text : String) : List String :=
  let lines := cutLines text.toList
  (if lines.getLast? == some [] then lines.dropLast else lines).map String.ofList

example : linesOf "a\n\nb" = ["a", "", "b"] ∧ linesOf "a\n" = ["a"] ∧ linesOf "" = [] := by
  decide +kernel

end SchemaLoom.Text
