import EntityWorld.Text.GraphemeExtend
import EntityWorld.Text.Unprintable

namespace EntityWorld.Text

/-- The escape by number, in hexadecimal digits between braces. -/
def escapeByNumber (c : Char) : List Char :=
  ['\\', 'u', '\x7b'] ++ Nat.toDigits 16 c.toNat ++ ['\x7d']

/-- Marks that have a place of their own although they extend a grapheme: the
    two halfwidth voicing marks. -/
def standingMarks : CharRanges :=
  [(0xff9e, 0xff9f)]

/-- Letters that are drawn as nothing: the fillers. -/
def fillers : CharRanges :=
  [(0x115f, 0x1160), (0x3164, 0x3164), (0xffa0, 0xffa0)]

/-- Whether a character would be lost to the eye if it stood for itself. -/
def isHidden (c : Char) : Bool :=
  unprintable.contains c.toNat || fillers.contains c.toNat ||
    graphemeExtend.contains c.toNat && !standingMarks.contains c.toNat

/-- How a character is written between quotes: the quote, the backslash and
    the common controls by a letter, those that would be hidden by number, all
    others as they are. -/
def escapeWithin (quote : Char) (c : Char) : List Char :=
  if c = quote then ['\\', c]
  else if c = '\\' then ['\\', '\\']
  else if c = '\x00' then ['\\', '0']
  else if c = '\t' then ['\\', 't']
  else if c = '\n' then ['\\', 'n']
  else if c = '\r' then ['\\', 'r']
  else if isHidden c then escapeByNumber c
  else [c]

def quoteWith (quote : Char) (text : List Char) : String :=
  String.ofList (quote :: text.flatMap (escapeWithin quote) ++ [quote])

/-- A character between single quotes. -/
def quotedChar (c : Char) : String :=
  quoteWith '\'' [c]

/-- A text between double quotes. -/
def quoted (text : String) : String :=
  quoteWith '"' text.toList

end EntityWorld.Text
