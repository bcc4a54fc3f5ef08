import CrewRoster.Document

/-!
Reading a document from JSON text. The reader takes one character at a time and keeps what is open: the
lists and objects around the current place, and what that place expects. A text is a document when the
reader ends with a value and nothing open.

Beyond JSON, `NaN`, `Infinity` and `-Infinity` are numbers. Of fields with the same name the last value
counts, in the place of the first.
-/

namespace CrewRoster.Document

/-- A list or object that is not closed yet, its parts latest first. -/
inductive Frame
  | array (items : List Document)
  | object (fields : List (String × Document)) (name : String)

/-- A text that is being read. -/
structure Spelling where
  /-- Its points so far, latest first. -/
  read : List Text.Point
  /-- The first half of a pair of code units whose second half has not come yet. -/
  half : Option Nat
  /-- The fields before it, latest first, if the text is the name of a field. -/
  named : Option (List (String × Document))

/-- What the reader is in the middle of. -/
inductive Place
  /-- A value has to start; with `closable`, the list that was just opened may close instead. -/
  | value (closable : Bool)
  /-- A name has to start; with `closable`, the object that was just opened may close instead. -/
  | name (closable : Bool) (fields : List (String × Document))
  | colon (fields : List (String × Document)) (name : String)
  | after (d : Document)
  | text (s : Spelling)
  | escape (s : Spelling)
  /-- Inside the four digits of a code unit, of which `left` are still to come. -/
  | unit (left : Nat) (n : Nat) (s : Spelling)
  | number (read : List Char)
  | word (left : List Char) (d : Document)

structure Reader where
  place : Place
  stack : List Frame

namespace Spelling

def begin (named : Option (List (String × Document))) : Spelling := ⟨[], none, named⟩

/-- The points read, a half whose second half does not come standing on its own. -/
def settled (s : Spelling) : List Text.Point := (s.half.map Text.Point.half).toList ++ s.read

/-- Takes in a point, a half that waits for its second half being settled by it. -/
def push (s : Spelling) (p : Text.Point) : Spelling := { s with read := p :: s.settled, half := none }

def pushUnit (s : Spelling) (n : Nat) : Spelling :=
  let isLow := 0xdc00 ≤ n && n < 0xe000
  match s.half, isLow with
  | some high, true =>
    let c := Char.ofNat (0x10000 + (high - 0xd800) * 0x400 + (n - 0xdc00))
    { s with read := .char c :: s.read, half := none }
  | _, true => s.push (.half n)
  | _, false =>
    if 0xd800 ≤ n && n < 0xdc00 then { s with read := s.settled, half := some n }
    else s.push (.char (Char.ofNat n))

def text (s : Spelling) : String := String.ofList (s.settled.reverse.flatMap Text.Point.carried)

end Spelling

namespace Reader

def start : Reader := ⟨.value false, []⟩

def isSpace (c : Char) : Bool := c == ' ' || c == '\t' || c == '\n' || c == '\r'

/-- Puts a field behind those before it, or its value in the place of its namesake's. -/
def putField (fields : List (String × Document)) (name : String) (d : Document) :
    List (String × Document) :=
  if fields.any (·.1 == name) then fields.map fun f => if f.1 == name then (name, d) else f
  else (name, d) :: fields

/-! ## Numbers -/

def digitsOf (cs : List Char) : Option (List Nat) :=
  if cs.isEmpty then none else cs.mapM Text.asciiDigit?

/-- The digits of a whole number, with what follows them; a zero is a number of its own. -/
def wholePart : List Char → List Char × List Char
  | '0' :: cs => (['0'], cs)
  | cs => cs.span Char.isDigit

/-- A point and digits, if both are there. -/
def fractionPart (cs : List Char) : Option (List Nat) × List Char :=
  match cs with
  | '.' :: rest =>
    let (part, rest) := rest.span Char.isDigit
    (digitsOf part).elim (none, cs) fun ds => (some ds, rest)
  | _ => (none, cs)

/-- An `e` and digits, possibly under a sign, if they are there. -/
def exponentPart (cs : List Char) : Option Int × List Char :=
  match cs with
  | [] => (none, cs)
  | c :: rest =>
    let (negative, rest) := splitSign rest
    let (part, rest) := rest.span Char.isDigit
    match c == 'e' || c == 'E', digitsOf part with
    | true, some ds =>
      let n : Int := Text.ofDigits ds
      (some (if negative then -n else n), rest)
    | _, _ => (none, cs)

/--
The longest number at the start of a text, with what follows it. A number is whole unless it has a
fraction or an exponent.
-/
def numberAt (cs : List Char) : Result (Document × List Char) :=
  let (negative, cs) := match cs with | '-' :: cs => (true, cs) | _ => (false, cs)
  let (row, cs) := wholePart cs
  let (fraction, cs) := fractionPart cs
  let (exponent, cs) := exponentPart cs
  match digitsOf row, fraction, exponent with
  | none, _, _ => .error .malformedDocument
  | some ds, none, none =>
    let n : Int := Text.ofDigits ds
    if maxWholeDigits < ds.length then .error .unreadable
    else .ok (.whole (if negative then -n else n), cs)
  | some ds, fraction, exponent =>
    let numeral := Numeral.ofParts negative ds (fraction.getD []) (exponent.getD 0)
    .ok (.real numeral.toBinary64, cs)

/-- The number that a whole text spells. -/
def numberOf (cs : List Char) : Result Document := do
  match ← numberAt cs with
  | (d, []) => return d
  | _ => .error .malformedDocument

/-! ## Steps -/

def malformed : Result Reader := .error .malformedDocument

/-- After a value: the list or object around it goes on or closes. -/
def stepAfter (d : Document) (stack : List Frame) (c : Char) : Result Reader :=
  if isSpace c then .ok ⟨.after d, stack⟩
  else
    match stack, c with
    | .array items :: stack, ',' => .ok ⟨.value false, .array (d :: items) :: stack⟩
    | .array items :: stack, ']' => .ok ⟨.after (.array (d :: items).reverse), stack⟩
    | .object fields name :: stack, ',' => .ok ⟨.name false (putField fields name d), stack⟩
    | .object fields name :: stack, '\x7d' =>
      .ok ⟨.after (.object (putField fields name d).reverse), stack⟩
    | _, _ => malformed

/-- How many lists and objects may be open around each other. -/
def maxDepth : Nat := 985

/-- Opens a list or object inside those of `stack`. -/
def opened (stack : List Frame) (r : Reader) : Result Reader :=
  if stack.length < maxDepth then .ok r else .error .tooDeep

def stepValue (closable : Bool) (stack : List Frame) (c : Char) : Result Reader :=
  if isSpace c then .ok ⟨.value closable, stack⟩
  else
    match c with
    | '"' => .ok ⟨.text (.begin none), stack⟩
    | '[' => opened stack ⟨.value true, .array [] :: stack⟩
    | '\x7b' => opened stack ⟨.name true [], stack⟩
    | ']' =>
      match closable, stack with
      | true, .array _ :: stack => .ok ⟨.after (.array []), stack⟩
      | _, _ => malformed
    | 'n' => .ok ⟨.word "ull".toList .null, stack⟩
    | 't' => .ok ⟨.word "rue".toList (.flag true), stack⟩
    | 'f' => .ok ⟨.word "alse".toList (.flag false), stack⟩
    | 'N' => .ok ⟨.word "aN".toList (.real (Binary64.notANumber false)), stack⟩
    | 'I' => .ok ⟨.word "nfinity".toList (.real (Binary64.infinity false)), stack⟩
    | c => if c == '-' || c.isDigit then .ok ⟨.number [c], stack⟩ else malformed

def stepName (closable : Bool) (fields : List (String × Document)) (stack : List Frame) (c : Char) :
    Result Reader :=
  if isSpace c then .ok ⟨.name closable fields, stack⟩
  else if c == '"' then .ok ⟨.text (.begin (some fields)), stack⟩
  else if closable && c == '\x7d' then .ok ⟨.after (.object []), stack⟩
  else malformed

def stepText (s : Spelling) (stack : List Frame) (c : Char) : Result Reader :=
  if c == '"' then
    match s.named with
    | none => .ok ⟨.after (.text s.text), stack⟩
    | some fields => .ok ⟨.colon fields s.text, stack⟩
  else if c == '\\' then .ok ⟨.escape s, stack⟩
  else if c.toNat < 0x20 then malformed
  else .ok ⟨.text (s.push (.char c)), stack⟩

def stepEscape (s : Spelling) (stack : List Frame) (c : Char) : Result Reader :=
  let plain (c : Char) : Result Reader := .ok ⟨.text (s.push (.char c)), stack⟩
  match c with
  | '"' | '\\' | '/' => plain c
  | 'b' => plain '\x08'
  | 'f' => plain '\x0c'
  | 'n' => plain '\n'
  | 'r' => plain '\r'
  | 't' => plain '\t'
  | 'u' => .ok ⟨.unit 4 0 s, stack⟩
  | _ => malformed

def hexDigit? (c : Char) : Option Nat :=
  if c.isDigit then some (c.toNat - '0'.toNat)
  else if 'a' ≤ c && c ≤ 'f' then some (c.toNat - 'a'.toNat + 10)
  else if 'A' ≤ c && c ≤ 'F' then some (c.toNat - 'A'.toNat + 10)
  else none

def stepUnit (left n : Nat) (s : Spelling) (stack : List Frame) (c : Char) : Result Reader :=
  match hexDigit? c with
  | none => malformed
  | some digit =>
    let n := n * 16 + digit
    if left ≤ 1 then .ok ⟨.text (s.pushUnit n), stack⟩ else .ok ⟨.unit (left - 1) n s, stack⟩

def isNumberChar (c : Char) : Bool :=
  c.isDigit || c == '-' || c == '+' || c == '.' || c == 'e' || c == 'E'

def stepNumber (read : List Char) (stack : List Frame) (c : Char) : Result Reader :=
  if isNumberChar c then .ok ⟨.number (c :: read), stack⟩
  else if read == ['-'] && c == 'I' then
    .ok ⟨.word "nfinity".toList (.real (Binary64.infinity true)), stack⟩
  else do stepAfter (← numberOf read.reverse) stack c

def stepWord (left : List Char) (d : Document) (stack : List Frame) (c : Char) : Result Reader :=
  match left with
  | [] => malformed
  | l :: left =>
    if l != c then malformed
    else if left.isEmpty then .ok ⟨.after d, stack⟩
    else .ok ⟨.word left d, stack⟩

def step (r : Reader) (c : Char) : Result Reader :=
  match r.place with
  | .value closable => stepValue closable r.stack c
  | .name closable fields => stepName closable fields r.stack c
  | .colon fields name =>
    if isSpace c then .ok r
    else if c == ':' then .ok ⟨.value false, .object fields name :: r.stack⟩
    else malformed
  | .after d => stepAfter d r.stack c
  | .text s => stepText s r.stack c
  | .escape s => stepEscape s r.stack c
  | .unit left n s => stepUnit left n s r.stack c
  | .number read => stepNumber read r.stack c
  | .word left d => stepWord left d r.stack c

/-- The document that has been read, if nothing is open. -/
def finish (r : Reader) : Result Document :=
  let whole (d : Document) : Result Document :=
    if r.stack.isEmpty then .ok d else .error .malformedDocument
  match r.place with
  | .after d => whole d
  | .number read => do whole (← numberOf read.reverse)
  | _ => .error .malformedDocument

end Reader

/-- Reads a whole text as one document. -/
def parse (source : String) : Result Document := do
  (← source.toList.foldlM Reader.step Reader.start).finish

end CrewRoster.Document
