import CrewRoster.Text.Half
import CrewRoster.Text.Printable

/-!
Quoted display of a text: single quotes, unless the text has a single quote and no double one. The
quote in use and the backslash are escaped, and so is all that cannot be shown.
-/

namespace CrewRoster.Text

/-- The quote that encloses a text. -/
def quoteFor (cs : List Char) : Char :=
  if cs.contains '\'' && !cs.contains '"' then '"' else '\''

/-- `n` in `width` hexadecimal digits. -/
def hexDigits (width n : Nat) : List Char :=
  let digits := Nat.toDigits 16 n
  List.replicate (width - digits.length) '0' ++ digits

/-- A hidden character by its code point, in two, four or eight digits. -/
def escapeHidden (c : Char) : List Char :=
  let n := c.toNat
  if n < 0x100 then '\\' :: 'x' :: hexDigits 2 n
  else if n < 0x10000 then '\\' :: 'u' :: hexDigits 4 n
  else '\\' :: 'U' :: hexDigits 8 n

def escape (quote c : Char) : List Char :=
  if c == quote || c == '\\' then ['\\', c]
  else if c == '\n' then ['\\', 'n']
  else if c == '\t' then ['\\', 't']
  else if c == '\r' then ['\\', 'r']
  else if isPrintable c then [c]
  else escapeHidden c

def escapePoint (quote : Char) : Point → List Char
  | .char c => escape quote c
  | .half n => '\\' :: 'u' :: hexDigits 4 n

def quoted (text : String) : String :=
  let cs := text.toList
  let quote := quoteFor cs
  String.ofList (quote :: (Point.all cs).flatMap (escapePoint quote) ++ [quote])

/-- Items between brackets. -/
def bracketed (items : List String) : String :=
  "[" ++ ", ".intercalate items ++ "]"

end CrewRoster.Text
