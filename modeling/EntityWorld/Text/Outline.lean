namespace EntityWorld.Text

/-- What a piece of nested data shows: plain text, a name with one part in
    parentheses, a list, or a name with labelled parts. -/
inductive Outline where
  | plain (text : String)
  | wrapped (name : String) (part : Outline)
  | list (items : List Outline)
  | labelled (name : String) (parts : List (String × Outline))

namespace Outline

mutual

/-- The layout on one line. A name without parts stands alone. -/
def inline : Outline → String
  | plain text => text
  | wrapped name part => name ++ "(" ++ part.inline ++ ")"
  | list items => "[" ++ inlineItems items ++ "]"
  | labelled name [] => name
  | labelled name (part :: parts) => name ++ " \x7b " ++ inlineParts (part :: parts) ++ " \x7d"

def inlineItems : List Outline → String
  | [] => ""
  | [item] => item.inline
  | item :: items => item.inline ++ ", " ++ inlineItems items

def inlineParts : List (String × Outline) → String
  | [] => ""
  | [(label, part)] => label ++ ": " ++ part.inline
  | (label, part) :: parts => label ++ ": " ++ part.inline ++ ", " ++ inlineParts parts

end

/-- The start of a line that is indented four places per level. -/
def indent (level : Nat) : String :=
  String.ofList (List.replicate (4 * level) ' ')

mutual

/-- The layout as a block whose first line stands at `level`. Every part has
    lines of its own, one level deeper, and is closed by a comma. -/
def block (level : Nat) : Outline → String
  | plain text => text
  | wrapped name part =>
    name ++ "(\n" ++ indent (level + 1) ++ part.block (level + 1) ++ ",\n" ++ indent level ++ ")"
  | list [] => "[]"
  | list (item :: items) => "[\n" ++ blockItems (level + 1) (item :: items) ++ indent level ++ "]"
  | labelled name [] => name
  | labelled name (part :: parts) =>
    name ++ " \x7b\n" ++ blockParts (level + 1) (part :: parts) ++ indent level ++ "\x7d"

def blockItems (level : Nat) : List Outline → String
  | [] => ""
  | item :: items => indent level ++ item.block level ++ ",\n" ++ blockItems level items

def blockParts (level : Nat) : List (String × Outline) → String
  | [] => ""
  | (label, part) :: parts =>
    indent level ++ label ++ ": " ++ part.block level ++ ",\n" ++ blockParts level parts

end

end Outline

end EntityWorld.Text
