import CrewRoster.Number.Rounding

/-!
Doubles as their 64 bits, with the rational that a finite one stands for. Arithmetic is done on the
rationals and rounded back, so no operation of the machine's floating point unit is involved.
-/

namespace CrewRoster

/-- A 64-bit binary floating point number: sign, 11 bits of exponent, 52 bits of fraction. -/
structure Binary64 where
  bits : UInt64
  deriving DecidableEq, Repr, Inhabited

namespace Binary64

def signBit : Nat := .pow 2 63
def fractionSpan : Nat := .pow 2 52
def exponentSpan : Nat := .pow 2 11

def isNegative (x : Binary64) : Bool := signBit ≤ x.bits.toNat
def exponentField (x : Binary64) : Nat := x.bits.toNat / fractionSpan % exponentSpan
def fractionField (x : Binary64) : Nat := x.bits.toNat % fractionSpan

/-- An exponent field of all ones marks the infinities and what is not a number. -/
def isFinite (x : Binary64) : Bool := x.exponentField ≠ exponentSpan - 1
def isNaN (x : Binary64) : Bool := !x.isFinite && x.fractionField ≠ 0

/-- The size of a finite double; a zero exponent field stands for the subnormal numbers. -/
def magnitude (x : Binary64) : Rat :=
  if x.exponentField = 0 then x.fractionField * powTwo (-1074)
  else ((fractionSpan + x.fractionField : Nat) : Rat) * powTwo ((x.exponentField : Int) - 1075)

/-- The value of a finite double; both zeros stand for 0. -/
def value (x : Binary64) : Rat := if x.isNegative then -x.magnitude else x.magnitude

def withSign (negative : Bool) (n : Nat) : Binary64 :=
  ⟨UInt64.ofNat (if negative then signBit + n else n)⟩

def infinity (negative : Bool) : Binary64 := withSign negative ((exponentSpan - 1) * fractionSpan)
def notANumber (negative : Bool) : Binary64 :=
  withSign negative ((exponentSpan - 1) * fractionSpan + .pow 2 51)

/--
The double nearest to a magnitude. The exponent field and the fraction are one number, so a
significand that rounds up to the next power of two carries into the exponent by itself.
-/
def ofMagnitude (negative : Bool) (m : Rat) : Binary64 :=
  if m = 0 then withSign negative 0
  else
    -- below 2 ^ -1022 the grid of the subnormal numbers gets no finer
    let k := max (binade m) (-1022)
    let n := (k + 1022).toNat * fractionSpan + (gridUnits m (k - 52)).toNat
    if n < (exponentSpan - 1) * fractionSpan then withSign negative n else infinity negative

def ofRat (q : Rat) : Binary64 := ofMagnitude (q < 0) q.abs

def zero : Binary64 := withSign false 0

/-- The sixteen hexadecimal digits of the bits, most significant first. -/
def hex (x : Binary64) : String :=
  let digits := Nat.toDigits 16 x.bits.toNat
  String.ofList (List.replicate (16 - digits.length) '0' ++ digits)

end Binary64
end CrewRoster
