import CrewRoster.Fault

/-!
Dates of the Gregorian calendar, extended backwards to year 1, as day numbers. Day 1 is January 1 of
year 1, a Monday; the last day is December 31 of year 9999.
-/

namespace CrewRoster

/-- A day that exists, by its number. -/
structure Date where
  number : Int
  one_le : 1 ≤ number
  le_last : number ≤ 3652059
  deriving DecidableEq, Repr

namespace Date

instance : Inhabited Date := ⟨1, by decide, by decide⟩

instance : LE Date := ⟨fun a b => a.number ≤ b.number⟩
instance : LT Date := ⟨fun a b => a.number < b.number⟩
instance (a b : Date) : Decidable (a ≤ b) := inferInstanceAs (Decidable (a.number ≤ b.number))
instance (a b : Date) : Decidable (a < b) := inferInstanceAs (Decidable (a.number < b.number))

@[ext]
theorem ext {a b : Date} (h : a.number = b.number) : a = b := by
  cases a; cases b; cases h; rfl

theorem le_def {a b : Date} : a ≤ b ↔ a.number ≤ b.number := Iff.rfl
theorem lt_def {a b : Date} : a < b ↔ a.number < b.number := Iff.rfl

theorem ne_of_lt {a b : Date} (h : a < b) : a ≠ b := by
  rintro rfl
  exact Int.lt_irrefl _ h

def ofNumber? (n : Int) : Option Date :=
  if h : 1 ≤ n ∧ n ≤ 3652059 then some ⟨n, h.1, h.2⟩ else none

/-- The day `n` days later, or earlier for negative `n`. -/
def plus (d : Date) (n : Int) : Result Date :=
  (ofNumber? (d.number + n)).elim (.error .outOfRange) .ok

def next (d : Date) : Result Date := d.plus 1
def previous (d : Date) : Result Date := d.plus (-1)

/-- 1 for Monday up to 7 for Sunday. -/
def weekday (d : Date) : Nat := ((d.number - 1) % 7).toNat + 1

/-- The days from `first` to `last`, both included. -/
def range (first last : Date) : List Date :=
  (List.range (last.number - first.number + 1).toNat).filterMap fun (i : Nat) =>
    ofNumber? (first.number + i)

theorem number_of_ofNumber? {n : Int} {d : Date} (h : ofNumber? n = some d) : d.number = n := by
  unfold ofNumber? at h
  split at h
  · cases h; rfl
  · cases h

/-- The days of a range ascend. -/
theorem range_ordered (first last : Date) : (range first last).Pairwise (· < ·) := by
  apply List.Pairwise.filterMap _ _ List.pairwise_lt_range
  intro i j hij a ha b hb
  rw [lt_def, number_of_ofNumber? ha, number_of_ofNumber? hb]
  omega

/-! ## Years and months -/

def isLeapYear (year : Nat) : Bool := year % 4 = 0 && (year % 100 ≠ 0 || year % 400 = 0)

def daysInMonth (year month : Nat) : Nat :=
  match month with
  | 2 => if isLeapYear year then 29 else 28
  | 4 | 6 | 9 | 11 => 30
  | _ => 31

/-- The days of all years before `year`. -/
def daysBeforeYear (year : Nat) : Nat :=
  let y := year - 1
  y * 365 + y / 4 - y / 100 + y / 400

/-- The days of the months of `year` before `month`. -/
def daysBeforeMonth (year month : Nat) : Nat :=
  (List.range (month - 1)).foldr (fun m days => daysInMonth year (m + 1) + days) 0

def ofCivil? (year month day : Nat) : Option Date :=
  if 1 ≤ year && year ≤ 9999 && 1 ≤ month && month ≤ 12 && 1 ≤ day && day ≤ daysInMonth year month then
    ofNumber? (daysBeforeYear year + daysBeforeMonth year month + day)
  else none

/-- The year that holds the day with `days` days before it. -/
def yearOf (days : Nat) : Nat :=
  let centuries := days / 146097 * 4
  let rest := days % 146097
  let century := min (rest / 36524) 3
  let rest := rest - century * 36524
  let quad := rest / 1461
  let year := min (rest % 1461 / 365) 3
  (centuries + century) * 100 + quad * 4 + year + 1

/-- The month and the day within it, counted from the months left of a year. -/
def monthOf (year : Nat) (days : Nat) : (left : Nat) → Nat × Nat
  | 0 => (12, days + 1)
  | left + 1 =>
    let month := 12 - left
    if days < daysInMonth year month then (month, days + 1)
    else monthOf year (days - daysInMonth year month) left

/-- Year, month and day. -/
def civil (d : Date) : Nat × Nat × Nat :=
  let days := (d.number - 1).toNat
  let year := yearOf days
  (year, monthOf year (days - daysBeforeYear year) 12)

/-! ## Weeks -/

/-- The Monday of the first week of a year, the week that holds its first Thursday. -/
def firstMonday (year : Nat) : Int :=
  let first : Int := daysBeforeYear year + 1
  let past := (first - 1) % 7
  if past ≤ 3 then first - past else first + 7 - past

/-- A day by week and weekday; a year has 52 weeks or 53. -/
def ofWeek? (year week weekday : Nat) : Option Date := do
  guard (1 ≤ year && year ≤ 9999 && 1 ≤ week && 1 ≤ weekday && weekday ≤ 7)
  let start := firstMonday year + (week - 1) * 7
  guard (week ≤ 52 || (week = 53 && start < firstMonday (year + 1)))
  ofNumber? (start + weekday - 1)

/-! ## Text -/

/-- `n` in at least `width` digits. -/
def padded (width n : Nat) : String :=
  let digits := Nat.toDigits 10 n
  String.ofList (List.replicate (width - digits.length) '0' ++ digits)

/-- Year, month and day, as in `2024-06-03`. -/
def text (d : Date) : String :=
  let (year, month, day) := d.civil
  padded 4 year ++ "-" ++ padded 2 month ++ "-" ++ padded 2 day

/-- Month and day alone, as in `06-03`. -/
def shortText (d : Date) : String :=
  let (_, month, day) := d.civil
  padded 2 month ++ "-" ++ padded 2 day

end Date
end CrewRoster
