import HijriRecurrence.Text.Printable

/-!
# Quoted text

Messages show a text between quotes.  Single quotes are used, unless the text holds a single quote
and no double one.  The quote in use and the backslash are escaped with a backslash, three line
controls have a short escape, and any other character that is not printable is written by its code
point with two, four or eight hexadecimal digits.
-/

namespace HijriRecurrence.Text

/-- The lower-case hexadecimal digits of a number, to exactly the given width. -/
def hexDigits : Nat → Nat → List Char
  | 0, _ => []
  | width + 1, n =>
    hexDigits width (n / 16) ++ [Char.ofNat (if n % 16 < 10 then 48 + n % 16 else 87 + n % 16)]

def quotedChar (quote c : Char) : List Char :=
  if c = quote ∨ c = '\\' then ['\\', c]
  else if c = '\n' then ['\\', 'n']
  else if c = '\r' then ['\\', 'r']
  else if c = '\t' then ['\\', 't']
  else if isPrintable c then [c]
  else if c.toNat < 0x100 then '\\' :: 'x' :: hexDigits 2 c.toNat
  else if c.toNat < 0x10000 then '\\' :: 'u' :: hexDigits 4 c.toNat
  else '\\' :: 'U' :: hexDigits 8 c.toNat

/-- The quote that a text is put between. -/
def quoteFor (text : List Char) : Char :=
  if text.contains '\'' && !text.contains '"' then '"' else '\''

def quoted (text : List Char) : String :=
  let quote := quoteFor text
  String.ofList (quote :: text.flatMap (quotedChar quote) ++ [quote])

def quote (text : String) : String := quoted text.toList

end HijriRecurrence.Text
