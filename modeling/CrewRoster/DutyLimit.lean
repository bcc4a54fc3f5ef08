import CrewRoster.Registry
import CrewRoster.Time.Clock

/-!
How long a duty may last: limits on the flight duty period, by the local time at which it starts and the
number of its legs.
-/

namespace CrewRoster

/--
The limits for duties that start between two times of day, both included. Limits are kept by slot, see
`slot`; a slot may have none.
-/
structure DutyLimit where
  start : Clock
  finish : Clock
  limits : List (Option Span)
  deriving DecidableEq, Repr

namespace DutyLimit

def slots : Nat := 10

/-- The limit where no other is given. -/
def fallback : Span := 9 * Span.hour

/-- Up to two legs share the first slot, and each further leg has the next one. -/
def slot (legs : Int) : Nat := if legs ≤ 2 then 0 else (legs - 2).toNat

/-- Writes the limits of some leg counts into their slots, later ones over earlier ones. -/
def fill : List (Option Span) → List (Int × Span) → Result (List (Option Span))
  | limits, [] => .ok limits
  | limits, (legs, limit) :: entries =>
    if slots ≤ slot legs then .error (.rejected (.segmentsBeyondTable legs slots))
    else fill (limits.set (slot legs) (some limit)) entries

def ofLegs (start finish : Clock) (entries : List (Int × Span)) : Result DutyLimit := do
  return ⟨start, finish, ← fill (List.replicate slots none) entries⟩

/-- Whether a duty that starts at `t` falls under the limits. -/
def covers (r : DutyLimit) (t : Clock) : Result Bool := do
  if ← r.start.le? t then t.le? r.finish else return false

def limitFor (r : DutyLimit) (legs : Int) : Span :=
  ((r.limits[slot legs]?).join).getD fallback

end DutyLimit

/-- The limits of a crew, by start time. -/
abbrev DutyLimits := List DutyLimit

namespace DutyLimits

/-- The first entry that covers `t`. -/
def firstCovering (t : Clock) : DutyLimits → Result (Option DutyLimit)
  | [] => .ok none
  | rule :: rules => do
    if ← rule.covers t then return some rule else firstCovering t rules

/-- The first entry that covers `t`; where none does, the first entry of all. -/
def ruleFor (rules : DutyLimits) (t : Clock) : Result (Option DutyLimit) := do
  return (← firstCovering t rules) <|> rules.head?

def limitFor (rules : DutyLimits) (t : Clock) (legs : Int) : Result Span := do
  return (← ruleFor rules t).elim DutyLimit.fallback (·.limitFor legs)

end DutyLimits
end CrewRoster
