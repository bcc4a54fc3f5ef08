import CrewRoster.Number.Numeral

/-!
The shortest decimal numeral that reads back as a given double, and its usual layout.
-/

namespace CrewRoster.Binary64

/-- The exponent `k` with `10 ^ k ≤ m < 10 ^ (k + 1)`, for a positive rational. -/
def decade (m : Rat) : Int :=
  let length (n : Nat) : Int := (Nat.toDigits 10 n).length
  let guess := length m.num.natAbs - length m.den
  if m < Numeral.powTen guess then guess - 1 else guess

/--
The numeral with `places` digits that reads back as the magnitude `m`, if there is one. Only the two
neighbours of `m` on that decimal grid can read back; of two the nearer wins, and of equally near ones
the even one.
-/
def readsBack? (m : Rat) (places : Nat) : Option Numeral :=
  let exponent := decade m - (places - 1)
  let low := (m / Numeral.powTen exponent).floor.toNat
  let at? (n : Nat) : Option Numeral :=
    let numeral : Numeral := ⟨false, n, exponent⟩
    if numeral.toBinary64 = ofMagnitude false m then some numeral else none
  let isLowNearer := (roundEven (m / Numeral.powTen exponent)).toNat = low
  if isLowNearer then at? low <|> at? (low + 1) else at? (low + 1) <|> at? low

/-- A numeral without the zeros at the end of its significand. -/
def dropZeros (digits : List Char) : List Char :=
  (digits.reverse.dropWhile (· == '0')).reverse

/-- The digits of the shortest numeral for `m`, and the decade of the first of them. -/
def shortest (m : Rat) : List Char × Int :=
  match (List.range 17).findSome? fun n => readsBack? m (n + 1) with
  | none => (['0'], 0)
  | some n =>
    let digits := Nat.toDigits 10 n.significand
    (dropZeros digits, n.exponent + digits.length - 1)

/-- An exponent has a sign and at least two digits. -/
def exponentText (k : Int) : String :=
  let digits := Nat.toDigits 10 k.natAbs
  (if k < 0 then "-" else "+") ++ String.ofList (if digits.length < 2 then '0' :: digits else digits)

/--
Digits whose first one stands in decade `k`: positional from `10 ^ -4` up to below `10 ^ 16`, with at
least one digit on either side of the point, and scientific elsewhere.
-/
def layout (digits : List Char) (k : Int) : String :=
  if k < -4 || 16 ≤ k then
    let fraction := digits.drop 1
    let point := if fraction.isEmpty then [] else ['.']
    String.ofList (digits.take 1 ++ point ++ fraction) ++ "e" ++ exponentText k
  else if k < 0 then
    "0." ++ String.ofList (List.replicate (-k - 1).toNat '0' ++ digits)
  else
    let places := k.toNat + 1
    let whole := digits.take places ++ List.replicate (places - digits.length) '0'
    let fraction := digits.drop places
    String.ofList whole ++ "." ++ String.ofList (if fraction.isEmpty then ['0'] else fraction)

/-- The text of a double; reading it gives the double back. -/
def text (x : Binary64) : String :=
  if x.isNaN then "nan"
  else
    let sign := if x.isNegative then "-" else ""
    if !x.isFinite then sign ++ "inf"
    else if x.magnitude = 0 then sign ++ "0.0"
    else
      let (digits, k) := shortest x.magnitude
      sign ++ layout digits k

end CrewRoster.Binary64
