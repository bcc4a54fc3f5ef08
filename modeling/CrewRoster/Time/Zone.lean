import CrewRoster.Time.Span

/-!
Time zones as fixed distances from UTC.
-/

namespace CrewRoster

/-- A distance from UTC of less than a day, positive to the east. -/
structure Zone where
  offset : Span
  gt_day : -Span.day < offset
  lt_day : offset < Span.day
  deriving DecidableEq, Repr

namespace Zone

def ofOffset (s : Span) : Result Zone :=
  if h : -Span.day < s ∧ s < Span.day then .ok ⟨s, h.1, h.2⟩ else .error .unreadable

def utc : Zone := ⟨0, by decide, by decide⟩

/-- The zone in which the crew lives unless a scenario says otherwise: two hours east. -/
def crew : Zone := ⟨2 * Span.hour, by decide, by decide⟩

def ofRealHours (x : Binary64) : Result Zone := do ofOffset (← Span.ofRealHours x)
def ofHours (n : Int) : Result Zone := do ofOffset (← Span.ofHours n)

end Zone
end CrewRoster
