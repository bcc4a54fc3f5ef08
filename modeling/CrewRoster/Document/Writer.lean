import CrewRoster.Document

/-!
Documents as JSON text, on one line or indented.
-/

namespace CrewRoster.Document

/-- Which characters of a text are written by their code. -/
structure Escaping where
  ascii : Bool

/-- A code unit of sixteen bits, by its code. -/
def codeUnit (n : Nat) : List Char := '\\' :: 'u' :: Text.hexDigits 4 n

/-- A character beyond the first 65536 is a pair of code units. -/
def codeUnits (c : Char) : List Char :=
  let n := c.toNat
  if n < 0x10000 then codeUnit n
  else codeUnit (0xd800 + (n - 0x10000) / 0x400) ++ codeUnit (0xdc00 + (n - 0x10000) % 0x400)

def writeChar (e : Escaping) (c : Char) : List Char :=
  match c with
  | '"' => ['\\', '"']
  | '\\' => ['\\', '\\']
  | '\n' => ['\\', 'n']
  | '\r' => ['\\', 'r']
  | '\t' => ['\\', 't']
  | '\x08' => ['\\', 'b']
  | '\x0c' => ['\\', 'f']
  | c => if c.toNat < 0x20 || (e.ascii && 0x7f ≤ c.toNat) then codeUnits c else [c]

/-- Half a pair of code units has no other form than its code. -/
def writePoint (e : Escaping) : Text.Point → List Char
  | .char c => writeChar e c
  | .half n => codeUnit n

def writeText (e : Escaping) (s : String) : String :=
  String.ofList ('"' :: (Text.Point.all s.toList).flatMap (writePoint e) ++ ['"'])

def writeReal (x : Binary64) : String :=
  if x.isNaN then "NaN"
  else if x.isFinite then x.text
  else if x.isNegative then "-Infinity" else "Infinity"

/-- Where a list or object is laid out: on one line, or one item to a line at a depth. -/
inductive Layout
  | line
  | indented (depth : Nat)

namespace Layout

def deeper : Layout → Layout
  | line => line
  | indented depth => indented (depth + 2)

def lineBreak : Layout → String
  | line => ""
  | indented depth => "\n" ++ "".pushn ' ' depth

def separator : Layout → String
  | line => ", "
  | indented depth => "," ++ lineBreak (indented depth)

def enclose (layout : Layout) (opening closing : String) (items : List String) : String :=
  if items.isEmpty then opening ++ closing
  else
    opening ++ layout.deeper.lineBreak ++ layout.deeper.separator.intercalate items ++ layout.lineBreak ++
      closing

end Layout

mutual

def write (e : Escaping) (layout : Layout) : Document → String
  | null => "null"
  | flag b => if b then "true" else "false"
  | whole n => toString n
  | real x => writeReal x
  | text s => writeText e s
  | array items => layout.enclose "[" "]" (writeItems e layout.deeper items)
  | object fields => layout.enclose "\x7b" "\x7d" (writeFields e layout.deeper fields)

def writeItems (e : Escaping) (layout : Layout) : List Document → List String
  | [] => []
  | d :: ds => write e layout d :: writeItems e layout ds

def writeFields (e : Escaping) (layout : Layout) : List (String × Document) → List String
  | [] => []
  | (name, d) :: ds => (writeText e name ++ ": " ++ write e layout d) :: writeFields e layout ds

end

/-- One line, every character as it is where JSON allows it. -/
def compact (d : Document) : String := write ⟨false⟩ .line d

/-- Two blanks for each level, ASCII only. -/
def indented (d : Document) : String := write ⟨true⟩ (.indented 0) d

end CrewRoster.Document
