import EntityWorld.Decimal.Layout
import EntityWorld.Text.Outline
import EntityWorld.Text.Quoted

namespace EntityWorld

/-- The value of a field, free of the field's own type. -/
inductive Value where
  | null
  | bool (b : Bool)
  | int (n : Int64)
  | uint (n : UInt64)
  | float (x : Float)
  | char (c : Char)
  | string (s : String)
  | list (items : List Value)
deriving Inhabited

namespace Value

/-- The word for the kind of a value in error messages. -/
def kind : Value → String
  | null => "null"
  | bool _ => "bool"
  | int _ => "int"
  | uint _ => "uint"
  | float _ => "float"
  | char _ => "char"
  | string _ => "string"
  | list _ => "list"

mutual

/-- Equality of values of one kind. On floats it is that of arithmetic: what
    is no number differs from itself, and the two zeros are equal. -/
def agree : Value → Value → Bool
  | null, null => true
  | bool a, bool b => a == b
  | int a, int b => a == b
  | uint a, uint b => a == b
  | float a, float b => a == b
  | char a, char b => a == b
  | string a, string b => a == b
  | list as, list bs => agreeItems as bs
  | _, _ => false

def agreeItems : List Value → List Value → Bool
  | [], [] => true
  | a :: as, b :: bs => agree a b && agreeItems as bs
  | _, _ => false

end

instance : BEq Value := ⟨agree⟩

/-- Floats among other text: all digits, never an exponent. -/
def plainNumber : NumberLayout where
  wholeEnd := ""
  usesExponent _ := false

/-- Floats that show their kind: a whole number has a zero behind the point,
    and very small and very large numbers have an exponent. -/
def exactNumber : NumberLayout where
  wholeEnd := ".0"
  usesExponent exponent := exponent < -4 || 16 ≤ exponent

mutual

/-- The text of a value for readers. -/
def text : Value → String
  | null => "null"
  | bool b => toString b
  | int n => toString n.toInt
  | uint n => toString n.toNat
  | float x => plainNumber.text (.ofFloat x)
  | char c => Text.quotedChar c
  | string s => Text.quoted s
  | list items => "[" ++ itemsText items ++ "]"

def itemsText : List Value → String
  | [] => ""
  | [item] => item.text
  | item :: items => item.text ++ ", " ++ itemsText items

end

/-- The layout of a value for developers, with the kind of every part. -/
def outline : Value → Text.Outline
  | null => .plain "Null"
  | bool b => .wrapped "Bool" (.plain (toString b))
  | int n => .wrapped "Int" (.plain (toString n.toInt))
  | uint n => .wrapped "UInt" (.plain (toString n.toNat))
  | float x => .wrapped "Float" (.plain (exactNumber.text (.ofFloat x)))
  | char c => .wrapped "Char" (.plain (Text.quotedChar c))
  | string s => .wrapped "String" (.plain (Text.quoted s))
  | list items => .wrapped "List" (.list (items.map outline))

end Value

end EntityWorld
