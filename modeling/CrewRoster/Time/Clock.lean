import CrewRoster.Time.Zone

/-!
Times of day, with or without a zone.
-/

namespace CrewRoster

structure Clock where
  micros : Int
  zone : Option Zone
  nonneg : 0 ≤ micros
  lt_day : micros < Span.day
  deriving DecidableEq, Repr

namespace Clock

instance : Inhabited Clock := ⟨0, none, by decide, by decide⟩

/-- A clock reading; hours, minutes and seconds stay below 24, 60 and 60. -/
def ofFields? (hour minute second micro : Nat) (zone : Option Zone) : Option Clock :=
  if h : hour < 24 ∧ minute < 60 ∧ second < 60 ∧ micro < 1000000 then
    some ⟨((hour * 60 + minute) * 60 + second) * 1000000 + micro, zone,
      by omega, by simp only [Span.day, Span.hour, Span.minute, Span.second]; omega⟩
  else none

/-- Whole hours of the day, for the limits of the duty rules. -/
def oclock (hour : Nat) (h : hour < 24) : Clock :=
  ⟨hour * Span.hour, none, by simp only [Span.hour, Span.minute, Span.second]; omega,
    by simp only [Span.day, Span.hour, Span.minute, Span.second]; omega⟩

/--
The place of a reading in UTC, to the second, and the microseconds after it. The part of a zone's offset
below a second does not count.
-/
def universal (c : Clock) : Int × Int :=
  (c.micros / Span.second - (c.zone.elim 0 Zone.offset) / Span.second, c.micros % Span.second)

def le (a b : Clock) : Bool :=
  a.universal.1 < b.universal.1 || (a.universal.1 = b.universal.1 && a.universal.2 ≤ b.universal.2)

/-- Two readings compare only if both have a zone or neither has one. -/
def le? (a b : Clock) : Result Bool :=
  if a.zone.isSome = b.zone.isSome then .ok (a.le b) else .error .wrongType

end Clock
end CrewRoster
