import CrewRoster.Time.Clock
import CrewRoster.Time.Date

/-!
Points in time: a date and a time of day, with or without a zone. Points with a zone and points without
one lie on different lines, and nothing relates them.
-/

namespace CrewRoster

structure Instant where
  /-- The microseconds from the start of year 1 that calendar and clock show. -/
  wall : Int
  zone : Option Zone
  nonneg : 0 ≤ wall
  lt_end : wall < 3652059 * Span.day
  deriving Repr

namespace Instant

@[ext]
theorem ext {a b : Instant} (h : a.wall = b.wall) (h' : a.zone = b.zone) : a = b := by
  cases a; cases b; cases h; cases h'; rfl

instance : DecidableEq Instant := fun a b =>
  if h : a.wall = b.wall ∧ a.zone = b.zone then .isTrue (ext h.1 h.2)
  else .isFalse fun e => h (e ▸ ⟨rfl, rfl⟩)

def ofWall? (wall : Int) (zone : Option Zone) : Option Instant :=
  if h : 0 ≤ wall ∧ wall < 3652059 * Span.day then some ⟨wall, zone, h.1, h.2⟩ else none

theorem day_pos : (0 : Int) < Span.day := by decide

/-- The date that the calendar shows. -/
def date (t : Instant) : Date where
  number := t.wall / Span.day + 1
  one_le := by
    have := Int.ediv_nonneg t.nonneg (Int.le_of_lt day_pos)
    omega
  le_last := by
    have := Int.ediv_lt_of_lt_mul day_pos t.lt_end
    omega

/-- The time of day that the clock shows, its zone left off. -/
def clock (t : Instant) : Clock where
  micros := t.wall % Span.day
  zone := none
  nonneg := Int.emod_nonneg _ (Int.ne_of_gt day_pos)
  lt_day := Int.emod_lt_of_pos _ day_pos

/-- A date at a time of day. -/
def ofDate (d : Date) (c : Clock) : Instant where
  wall := (d.number - 1) * Span.day + c.micros
  zone := c.zone
  nonneg := by
    have h₁ := d.one_le
    have h₂ := c.nonneg
    simp only [Span.day, Span.hour, Span.minute, Span.second]
    omega
  lt_end := by
    have h₁ := d.le_last
    have h₂ := c.lt_day
    simp only [Span.day, Span.hour, Span.minute, Span.second] at *
    omega

/-- The point in UTC, on the line of the zoned points; without a zone, the point on the other line. -/
def position (t : Instant) : Int := t.wall - t.zone.elim 0 Zone.offset

/-- Two points lie on one line if both have a zone or neither has one. -/
def comparable (a b : Instant) : Bool := a.zone.isSome = b.zone.isSome

def lt? (a b : Instant) : Result Bool :=
  if a.comparable b then .ok (a.position < b.position) else .error .wrongType

def le? (a b : Instant) : Result Bool :=
  if a.comparable b then .ok (a.position ≤ b.position) else .error .wrongType

/-- The time from `b` to `a`. -/
def minus (a b : Instant) : Result Span :=
  if a.comparable b then .ok (a.position - b.position) else .error .wrongType

/-- The earlier of two points, the first one if they are the same. -/
def min? (a b : Instant) : Result Instant := do return if ← b.lt? a then b else a

/-- The later of two points, the first one if they are the same. -/
def max? (a b : Instant) : Result Instant := do return if ← a.lt? b then b else a

def plus (t : Instant) (s : Span) : Result Instant :=
  (ofWall? (t.wall + s) t.zone).elim (.error .outOfRange) .ok

/-- What calendar and clock show in `zone` when those of UTC show `t`. -/
def inZone (t : Instant) (zone : Zone) : Result Instant :=
  (ofWall? (t.wall + zone.offset) (some zone)).elim (.error .outOfRange) .ok

/-- The same day at another time of day. -/
def withClock (t : Instant) (c : Clock) : Instant := { ofDate t.date c with zone := t.zone }

end Instant
end CrewRoster
