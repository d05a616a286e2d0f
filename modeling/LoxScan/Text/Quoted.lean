import LoxScan.Text.Basic
import LoxScan.Text.Printable

/-! # Quoted text

The form in which texts appear inside descriptions of tokens and diagnostics: between quotes, with
everything that is not printable escaped, so that the text can be read off again.

* `quoteMark` chooses the quote: the apostrophe, unless the text has one and no double quote.
* `escape` is the written form of one character between given quotes.
* `quoted` writes a whole text, `quotedOrNone` one that may be absent; `plainOrNone` writes such a
  text without quotes.
-/

namespace LoxScan

/-- The quote around a text: a double quote only where it saves escaping an apostrophe. -/
def quoteMark (text : List Char) : Char :=
  if text.contains '\'' && !text.contains '"' then '"' else '\''

/-- One character between quotes.  The backslash and the quote itself get a backslash, tabs and
    line ends have short names, and other unprintable characters are written by code point. -/
def escape (quote : Char) (c : Char) : List Char :=
  if c == quote || c == '\\' then ['\\', c]
  else if c == '\t' then ['\\', 't']
  else if c == '\n' then ['\\', 'n']
  else if c == '\r' then ['\\', 'r']
  else if isPrintable c then [c]
  else if c.toNat < 0x100 then '\\' :: 'x' :: hexDigits 2 c.toNat
  else if c.toNat < 0x10000 then '\\' :: 'u' :: hexDigits 4 c.toNat
  else '\\' :: 'U' :: hexDigits 8 c.toNat

def quotedChars (text : List Char) : List Char :=
  let quote := quoteMark text
  quote :: (text.flatMap (escape quote) ++ [quote])

def quoted (text : String) : String :=
  String.ofList (quotedChars text.toList)

def quotedOrNone : Option String → String
  | some text => quoted text
  | none => "None"

def plainOrNone : Option String → String
  | some text => text
  | none => "None"

end LoxScan
