import CrewRoster.Number.Binary64
import CrewRoster.Text.Blank
import CrewRoster.Text.Digit

/-!
Numbers written as text: whole numbers, and decimal numerals with the double that each one names.
-/

namespace CrewRoster

/-- The longest whole number that is read, in digits. -/
def maxWholeDigits : Nat := 4300

/-- Splits a leading sign off a text. -/
def splitSign : List Char → Bool × List Char
  | '-' :: cs => (true, cs)
  | '+' :: cs => (false, cs)
  | cs => (false, cs)

/-- The whole number that a text spells, blanks around it aside. -/
def readWhole? (text : String) : Option Int := do
  let (negative, cs) := splitSign (Text.trimBlanks text.toList)
  let ds ← Text.groupedDigits? cs
  guard (ds.length ≤ maxWholeDigits)
  let n : Int := Text.ofDigits ds
  return if negative then -n else n

/-- A decimal numeral: `significand · 10 ^ exponent` under a sign. -/
structure Numeral where
  negative : Bool
  significand : Nat
  exponent : Int
  deriving DecidableEq, Repr

namespace Numeral

/-- `10 ^ k`, for exponents of either sign. -/
def powTen (k : Int) : Rat :=
  if 0 ≤ k then (Nat.pow 10 k.toNat : Rat) else 1 / (Nat.pow 10 (-k).toNat : Rat)

/-- Past this many decimal places on either side a double is infinite or zero. -/
def reach : Int := 400

/--
The double nearest to the numeral. Numerals beyond `reach` are decided by their size alone, so that a
short text with a huge exponent costs nothing.
-/
def toBinary64 (n : Numeral) : Binary64 :=
  -- the value lies between 10 ^ (size - 1) and 10 ^ size
  let size := (Nat.toDigits 10 n.significand).length + n.exponent
  if n.significand = 0 || size < -reach then Binary64.withSign n.negative 0
  else if reach < size then Binary64.infinity n.negative
  else Binary64.ofMagnitude n.negative (n.significand * powTen n.exponent)

/-- Digits before and after the point, and the exponent that follows them. -/
def ofParts (negative : Bool) (whole fraction : List Nat) (exponent : Int) : Numeral where
  negative := negative
  significand := Text.ofDigits (whole ++ fraction)
  exponent := exponent - fraction.length

/-- An optional row of grouped digits, with what follows it. -/
def digitRow? (cs : List Char) : Option (List Nat × List Char) :=
  let isRow := fun c => c == '_' || (Text.digit? c).isSome
  match cs.takeWhile isRow with
  | [] => some ([], cs)
  | row => (Text.groupedDigits? row).map (·, cs.dropWhile isRow)

def exponent? : List Char → Option Int
  | [] => some 0
  | c :: cs => do
    guard (c == 'e' || c == 'E')
    let (negative, cs) := splitSign cs
    let n : Int := Text.ofDigits (← Text.groupedDigits? cs)
    return if negative then -n else n

def ofText? (negative : Bool) (cs : List Char) : Option Numeral := do
  let (whole, cs) ← digitRow? cs
  let (fraction, cs) ←
    match cs with
    | '.' :: rest => digitRow? rest
    | _ => some ([], cs)
  guard (!(whole.isEmpty && fraction.isEmpty))
  return ofParts negative whole fraction (← exponent? cs)

end Numeral

/-- The double that a text names: a decimal numeral, an infinity, or `nan`, blanks around it aside. -/
def readBinary64? (text : String) : Option Binary64 :=
  let (negative, cs) := splitSign (Text.trimBlanks text.toList)
  let word := String.ofList (cs.map Char.toLower)
  if word == "inf" || word == "infinity" then some (Binary64.infinity negative)
  else if word == "nan" then some (Binary64.notANumber negative)
  else (Numeral.ofText? negative cs).map Numeral.toBinary64

end CrewRoster
