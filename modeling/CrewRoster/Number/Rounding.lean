/-!
Rounding in exact arithmetic: a rational to a whole number, and a rational to the 53 binary digits
that a double keeps. Both send a half to the even neighbour.
-/

namespace CrewRoster

/-- The whole number nearest to `q`; of two equally near ones, the even one. -/
def roundEven (q : Rat) : Int :=
  let low := q.floor
  let rest := q - low
  if rest < 1 / 2 then low
  else if 1 / 2 < rest then low + 1
  else if low % 2 = 0 then low
  else low + 1

/-- `q` without its fractional part, toward zero. -/
def truncate (q : Rat) : Int :=
  if q < 0 then -(-q).floor else q.floor

/-- `2 ^ k`, for exponents of either sign. -/
def powTwo (k : Int) : Rat :=
  if 0 ≤ k then (Nat.pow 2 k.toNat : Rat) else 1 / (Nat.pow 2 (-k).toNat : Rat)

/-- The exponent `k` with `2 ^ k ≤ |q| < 2 ^ (k + 1)`, for `q` other than 0. -/
def binade (q : Rat) : Int :=
  let guess : Int := (q.num.natAbs.log2 : Int) - (q.den.log2 : Int)
  if q.abs < powTwo guess then guess - 1 else guess

/-- The multiple of `2 ^ k` nearest to `q`, counted in units of `2 ^ k`. -/
def gridUnits (q : Rat) (k : Int) : Int :=
  roundEven (q / powTwo k)

/-- `q` rounded to 53 significant binary digits, with no bound on the exponent. -/
def nearest (q : Rat) : Rat :=
  if q = 0 then 0
  else
    let k := binade q - 52
    gridUnits q k * powTwo k

@[simp] theorem nearest_zero : nearest 0 = 0 := by simp [nearest]

end CrewRoster
