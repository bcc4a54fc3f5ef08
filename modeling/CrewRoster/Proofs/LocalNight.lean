import CrewRoster.Proofs.RestAhead

namespace CrewRoster

namespace Instant

variable {t u s : Instant}

theorem position_sub_of_zone_eq (h : t.zone = u.zone) : t.position - u.position = t.wall - u.wall := by
  rw [position, position, h]
  exact sub_sub_sub_cancel_right _ _ _

-- Past 22:00, as the clock shows it.
def Late (t : Instant) : Prop := 22 * Span.hour < t.clock.micros

-- Before six, as the clock shows it.
def Early (t : Instant) : Prop := t.clock.micros < 6 * Span.hour

instance : Decidable t.Late := inferInstanceAs (Decidable (_ < _))

instance : Decidable t.Early := inferInstanceAs (Decidable (_ < _))

-- Between a finish and a start there is no local night: after a late finish the rest is less than eight
-- hours, and after any other the start is early.
def NoNight (t s : Instant) : Prop :=
  if t.Late then s.position - t.position < 8 * Span.hour else s.Early

instance : Decidable (t.NoNight s) := inferInstanceAs (Decidable (ite ..))

theorem noNight_of_late (h : t.Late) : t.NoNight s ↔ s.position - t.position < 8 * Span.hour := by
  rw [NoNight, if_pos h]

theorem noNight_of_not_late (h : ¬t.Late) : t.NoNight s ↔ s.Early := by
  rw [NoNight, if_neg h]

-- Of two finishes the clock shows one late and the other not, so that they are judged differently:
-- 1. the first leaves less than eight hours of rest, and the start is not early
-- 2. the start is early, and the second leaves eight hours of rest
inductive Forgiven (t u s : Instant) : Prop
  | early (ht : t.Late) (hrest : s.position - t.position < 8 * Span.hour) (hu : ¬u.Late) (hs : ¬s.Early)
  | late (ht : ¬t.Late) (hs : s.Early) (hu : u.Late) (hrest : 8 * Span.hour ≤ s.position - u.position)

-- The first finish is late and leaves less than eight hours of rest, the other is past midnight, and the
-- start is not early.
structure PastMidnight (t u s : Instant) : Prop where
  late : t.Late
  short : s.wall - t.wall < 8 * Span.hour
  midnight : t.date < u.date
  start : ¬s.Early

section Later

theorem forgiven_iff (htu : t.position ≤ u.position) :
    Forgiven t u s ↔ t.NoNight s ∧ ¬u.NoNight s := by
  constructor
  · rintro (⟨ht, hrest, hu, hs⟩ | ⟨ht, hs, hu, hrest⟩)
    · exact ⟨(noNight_of_late ht).2 hrest, (noNight_of_not_late hu).not.2 hs⟩
    · exact ⟨(noNight_of_not_late ht).2 hs, (noNight_of_late hu).not.2 (not_lt.2 hrest)⟩
  · rintro ⟨hshort, hnot⟩
    by_cases ht : t.Late <;> by_cases hu : u.Late
    · -- both late: the later finish leaves less rest
      rw [noNight_of_late ht] at hshort
      rw [noNight_of_late hu] at hnot
      exact absurd ((Int.sub_le_sub_left htu _).trans_lt hshort) hnot
    · exact .early ht ((noNight_of_late ht).1 hshort) hu ((noNight_of_not_late hu).not.1 hnot)
    · exact .late ht ((noNight_of_not_late ht).1 hshort) hu (not_lt.1 ((noNight_of_late hu).not.1 hnot))
    · -- neither late: the start counts, whatever the finish
      rw [noNight_of_not_late ht] at hshort
      exact absurd ((noNight_of_not_late hu).2 hshort) hnot

variable (ht : t.zone = s.zone) (hu : u.zone = s.zone) (htu : t.wall ≤ u.wall) (hus : u.wall ≤ s.wall)
  (hday : s.wall - t.wall < Span.day)
include ht hu htu hus hday

-- On one clock a finish that follows a late one within eight hours is late itself, unless it is past
-- midnight, and one that is eight hours before an early start is not late.
theorem forgiven_iff_pastMidnight : Forgiven t u s ↔ PastMidnight t u s := by
  have hwall := t.wall_eq
  have hwall' := u.wall_eq
  have hwall'' := s.wall_eq
  have hclock := t.clock.nonneg
  have hclock' := u.clock.nonneg
  have hclock'' := s.clock.nonneg
  have hlt := t.clock.lt_day
  have hlt' := u.clock.lt_day
  constructor
  · rintro (⟨hlate, hrest, hnot, hs⟩ | ⟨hlate, hs, hnot, hrest⟩)
    · rw [position_sub_of_zone_eq ht.symm] at hrest
      refine ⟨hlate, hrest, ?_, hs⟩
      rw [Date.lt_def]
      simp only [Late, Early, Span.day, Span.hour, Span.minute, Span.second, Span] at *
      omega
    · rw [position_sub_of_zone_eq hu.symm] at hrest
      simp only [Late, Early, Span.day, Span.hour, Span.minute, Span.second, Span] at *
      omega
  · rintro ⟨hlate, hrest, hmidnight, hs⟩
    rw [Date.lt_def] at hmidnight
    refine .early hlate (position_sub_of_zone_eq ht.symm ▸ hrest) ?_ hs
    simp only [Late, Early, Span.day, Span.hour, Span.minute, Span.second, Span] at *
    omega

end Later

end Instant

namespace Duty

variable {d p q : Duty} {s t u : Instant}

theorem noLocalNight_eq (hstart : d.start = some s) (hfinish : p.finish = some t)
    (hline : s.comparable t = true) : d.noLocalNight (some p) = .ok (decide (t.NoNight s)) := by
  rw [noLocalNight, Option.bind_some, hfinish, hstart]
  dsimp only
  split
  case isTrue hlate =>
    rw [Instant.minus_of_comparable hline, Result.ok_bind, Result.pure_eq_ok,
      decide_eq_decide.2 (Instant.noNight_of_late hlate)]
  case isFalse hearly =>
    rw [decide_eq_decide.2 (Instant.noNight_of_not_late hearly)]
    rfl

-- Of two finishes before one start, both less than a day before it, the second is no earlier. Of a duty
-- that starts then, after duties that finish so:
-- 1. if there is no local night after the first finish, there is none after the second, unless the
--    second is forgiven what the first is not
-- 2. where the three times are told in one zone, it is so unless the second finish is past midnight, the
--    first is late and leaves less than eight hours of rest, and the start is not early
theorem noLocalNight_of_later_finish (hstart : d.start = some s) (ht : p.finish = some t)
    (hu : q.finish = some u) (hst : s.comparable t = true) (hsu : s.comparable u = true)
    (htu : t.position ≤ u.position) (hus : u.position ≤ s.position)
    (hday : s.position - t.position < Span.day) :
    ∃ b c, d.noLocalNight (some p) = .ok b ∧ d.noLocalNight (some q) = .ok c ∧
      ((b = true → c = true) ↔ ¬t.Forgiven u s) ∧
      (t.zone = s.zone → u.zone = s.zone → ((b = true → c = true) ↔ ¬t.PastMidnight u s)) := by
  have hiff : (decide (t.NoNight s) = true → decide (u.NoNight s) = true) ↔ ¬t.Forgiven u s := by
    rw [Instant.forgiven_iff htu, decide_eq_true_iff, decide_eq_true_iff, not_and_not_right]
  refine ⟨_, _, noLocalNight_eq hstart ht hst, noLocalNight_eq hstart hu hsu, hiff, fun hzone hzone' => ?_⟩
  rw [hiff, Instant.forgiven_iff_pastMidnight hzone hzone']
  · have := Instant.position_sub_of_zone_eq (hzone.trans hzone'.symm)
    omega
  · have := Instant.position_sub_of_zone_eq hzone'
    omega
  · exact Instant.position_sub_of_zone_eq hzone.symm ▸ hday

-- Work on the ground until half past ten in the evening, until half past midnight, and from a quarter past
-- six in the morning.
def evening : Duty :=
  ofGround "E" ⟨some groundCode, .ofDate (.after 739039) (.after 14 0 0),
    .ofDate (.after 739039) (.after 22 30 0)⟩

def night : Duty :=
  ofGround "E" ⟨some groundCode, .ofDate (.after 739039) (.after 16 0 0),
    .ofDate (.after 739040) (.after 0 30 0)⟩

def morning : Duty :=
  ofGround "E" ⟨some groundCode, .ofDate (.after 739040) (.after 6 15 0),
    .ofDate (.after 739040) (.after 14 0 0)⟩

-- After the evening there is no local night, and after the night there is one.
theorem noLocalNight_past_midnight : ∃ s t u, morning.start = some s ∧ evening.finish = some t ∧
    night.finish = some u ∧ t.position ≤ u.position ∧ u.position ≤ s.position ∧
    s.position - t.position < Span.day ∧ morning.noLocalNight (some evening) = .ok true ∧
    morning.noLocalNight (some night) = .ok false :=
  ⟨_, _, _, rfl, rfl, rfl, by decide +kernel⟩

-- The night is past midnight.
theorem noLocalNight_of_later_finish_night : ∃ s t u b c, morning.start = some s ∧
    evening.finish = some t ∧ night.finish = some u ∧ s.comparable t = true ∧ s.comparable u = true ∧
    t.position ≤ u.position ∧ u.position ≤ s.position ∧ s.position - t.position < Span.day ∧
    morning.noLocalNight (some evening) = .ok b ∧ morning.noLocalNight (some night) = .ok c ∧
    ((b = true → c = true) ↔ ¬t.PastMidnight u s) ∧ t.PastMidnight u s := by
  obtain ⟨b, c, hb, hc, -, hiff⟩ := noLocalNight_of_later_finish (d := morning) (p := evening) (q := night)
    rfl rfl rfl (by decide) (by decide) (by decide +kernel) (by decide +kernel) (by decide +kernel)
  exact ⟨_, _, _, b, c, rfl, rfl, rfl, by decide, by decide, by decide +kernel, by decide +kernel,
    by decide +kernel, hb, hc, hiff rfl rfl,
    ⟨by decide +kernel, by decide +kernel, by decide +kernel, by decide +kernel⟩⟩

end Duty
end CrewRoster
