import Scim.Text.HiddenRanges
import Scim.Text.Ranges

/-! Texts and characters as they are quoted in messages: characters that show nothing by
themselves are written by their code point. -/
namespace Scim.Text

def codePointEscape (c : Char) : List Char :=
  ['\\', 'u', '{'] ++ Nat.toDigits 16 c.toNat ++ ['}']

def quoteChar (quote c : Char) : List Char :=
  if c = '\x00' then ['\\', '0']
  else if c = '\t' then ['\\', 't']
  else if c = '\r' then ['\\', 'r']
  else if c = '\n' then ['\\', 'n']
  else if c = quote ∨ c = '\\' then ['\\', c]
  else if inRanges hiddenRanges c then codePointEscape c
  else [c]

def quoteChars (quote : Char) (text : List Char) : String :=
  String.ofList (quote :: text.flatMap (quoteChar quote) ++ [quote])

def quoted (text : String) : String := quoteChars '"' text.toList

def quotedChar (c : Char) : String := quoteChars '\'' [c]

def quotedList (texts : List String) : String :=
  "[" ++ ", ".intercalate (texts.map quoted) ++ "]"

end Scim.Text
