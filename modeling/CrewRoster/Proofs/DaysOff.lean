import CrewRoster.Proofs.Figures
import CrewRoster.Proofs.LocalNight

namespace CrewRoster

namespace Instant

variable {t u x y : Instant} {zone : Zone}

theorem wall_sub_withClock (t : Instant) (c : Clock) :
    t.wall - (t.withClock c).wall = t.clock.micros - c.micros := by
  rw [t.wall_eq]
  exact Int.add_sub_add_left ..

theorem withClock_lt_iff {c : Clock} : (t.withClock c).wall < t.wall ↔ c.micros < t.clock.micros := by
  rw [← sub_pos, wall_sub_withClock, sub_pos]

theorem wall_of_inZone (h : t.inZone zone = .ok x) : x.wall = t.wall + zone.offset := by
  rw [inZone, ofWall?] at h
  split at h
  case isTrue =>
    obtain rfl := Except.ok.inj h
    rfl
  case isFalse => cases h

-- The later of two times in UTC is the later one in every zone.
theorem wall_lt_of_inZone (ht : t.inZone zone = .ok x) (hu : u.inZone zone = .ok y)
    (h : t.wall < u.wall) : x.wall < y.wall := by
  rw [wall_of_inZone ht, wall_of_inZone hu]
  omega

-- Of two times of one day the clock shows the order.
theorem clock_lt_of_date_eq (hdate : t.date = u.date) (h : t.wall < u.wall) :
    t.clock.micros < u.clock.micros := by
  rw [t.wall_eq, u.wall_eq, hdate] at h
  exact lt_of_add_lt_add_left h

end Instant

namespace Employee

variable {e : Employee} {zone : Zone} {day off after : Date} {f : Flight} {t u x y : Instant}

-- In `zone` the employee works on the day before the departure of the flight.
def LeavesFreely (e : Employee) (zone : Zone) (f : Flight) : Prop :=
  ∃ departure before, f.departure.inZone zone = .ok departure ∧
    departure.date.previous = .ok before ∧ e.isAvailable before = true

-- A single day off, between a day of work and another.
structure DayOff (e : Employee) (day off after : Date) : Prop where
  next : day.next = .ok off
  next_off : off.next = .ok after
  work : e.isAvailable day = true
  rest : e.isAvailable off = false
  work_after : e.isAvailable after = true

-- What an arrival at `t`, with `x` as its local time, costs on the day before a day off or on the day
-- itself.
def arrivalCost (e : Employee) (day : Date) (t x : Instant) : Int :=
  if x.date = day ∧ x.Late then Span.minutes (x.clock.micros - 22 * Span.hour)
  else if e.isAvailable t.date then 0 else fullDayMinutes

-- The arrival costs a full day: it is no late one on the day before, and in UTC it is on a day off.
structure TakesDay (e : Employee) (day : Date) (t x : Instant) : Prop where
  notLate : ¬(x.date = day ∧ x.Late)
  off : e.isAvailable t.date = false

-- The arrival costs a part of the evening: it is a minute or more past 22:00 on the day before.
structure TakesEvening (day : Date) (x : Instant) : Prop where
  date : x.date = day
  minute : 22 * Span.hour + Span.minute ≤ x.clock.micros

section Cost

theorem TakesEvening.late (h : TakesEvening day x) : x.date = day ∧ x.Late :=
  ⟨h.date, lt_of_lt_of_le (by decide) h.minute⟩

theorem TakesEvening.arrivalCost_eq (h : TakesEvening day x) :
    e.arrivalCost day t x = Span.minutes (x.clock.micros - 22 * Span.hour) :=
  if_pos h.late

theorem TakesDay.arrivalCost_eq (h : e.TakesDay day t x) : e.arrivalCost day t x = fullDayMinutes := by
  rw [arrivalCost, if_neg h.notLate, h.off]
  rfl

theorem TakesEvening.pos (h : TakesEvening day x) : 0 < e.arrivalCost day t x := by
  rw [h.arrivalCost_eq, Span.minutes_pos_iff]
  exact Int.le_sub_left_of_add_le h.minute

-- There are two hours between 22:00 and midnight.
theorem TakesEvening.lt_fullDay (h : TakesEvening day x) : e.arrivalCost day t x < fullDayMinutes := by
  rw [h.arrivalCost_eq]
  have hlt := x.clock.lt_day
  calc Span.minutes (x.clock.micros - 22 * Span.hour)
      ≤ Span.minutes (120 * Span.minute) := Span.minutes_mono (by
        simp only [Span.day, Span.hour, Span.minute, Span.second, Span] at *
        omega)
    _ = 120 := Span.minutes_mul (by norm_num)
    _ < fullDayMinutes := by decide

-- Any other arrival costs nothing.
theorem arrivalCost_eq_zero (hday : ¬e.TakesDay day t x) (hevening : ¬TakesEvening day x) :
    e.arrivalCost day t x = 0 := by
  rw [arrivalCost]
  split_ifs with hlate havailable
  case pos =>
    have hlt : x.clock.micros < 22 * Span.hour + Span.minute :=
      not_le.1 fun hle => hevening ⟨hlate.1, hle⟩
    have hlow : 0 < x.clock.micros - 22 * Span.hour := sub_pos.2 hlate.2
    rw [Span.minutes_eq_ediv hlow.le]
    all_goals
      simp only [Span.hour, Span.minute, Span.second, Span] at *
      omega
  case pos => rfl
  case neg => exact absurd ⟨hlate, Bool.eq_false_iff.2 havailable⟩ hday

theorem arrivalCost_pos_iff : 0 < e.arrivalCost day t x ↔ e.TakesDay day t x ∨ TakesEvening day x := by
  constructor
  · contrapose!
    rintro ⟨hday, hevening⟩
    exact (arrivalCost_eq_zero hday hevening).le
  · rintro (h | h)
    · rw [h.arrivalCost_eq]
      decide
    · exact h.pos

theorem arrivalCost_nonneg : 0 ≤ e.arrivalCost day t x := by
  by_contra! h
  exact h.ne (arrivalCost_eq_zero (fun hd => (arrivalCost_pos_iff.2 (.inl hd)).not_gt h)
    fun he => (arrivalCost_pos_iff.2 (.inr he)).not_gt h)

theorem arrivalCost_le_fullDay : e.arrivalCost day t x ≤ fullDayMinutes := by
  by_cases hday : e.TakesDay day t x
  · exact hday.arrivalCost_eq.le
  · by_cases hevening : TakesEvening day x
    · exact hevening.lt_fullDay.le
    · rw [arrivalCost_eq_zero hday hevening]
      decide

-- The second arrival costs no less than the first if it takes a day where the first does, and something
-- where the first takes a part of the evening.
theorem arrivalCost_le_iff (hlt : x.wall < y.wall) :
    e.arrivalCost day t x ≤ e.arrivalCost day u y ↔
      (e.TakesDay day t x → e.TakesDay day u y) ∧
        (TakesEvening day x → TakesEvening day y ∨ e.TakesDay day u y) := by
  constructor
  · intro hle
    constructor
    · intro hday
      by_contra hnot
      rw [hday.arrivalCost_eq] at hle
      by_cases hevening : TakesEvening day y
      · exact absurd hle hevening.lt_fullDay.not_ge
      · rw [arrivalCost_eq_zero hnot hevening] at hle
        exact absurd hle (by decide)
    · intro hevening
      exact (arrivalCost_pos_iff.1 (hevening.pos.trans_le hle)).symm
  · rintro ⟨hday, hevening⟩
    by_cases hfirst : TakesEvening day x
    case neg =>
      by_cases hday' : e.TakesDay day t x
      · rw [hday'.arrivalCost_eq, (hday hday').arrivalCost_eq]
      · rw [arrivalCost_eq_zero hday' hfirst]
        exact arrivalCost_nonneg
    case pos =>
      rcases hevening hfirst with hsecond | hsecond
      · -- both in one evening: the later arrival takes more of it
        rw [hfirst.arrivalCost_eq, hsecond.arrivalCost_eq]
        have := Instant.clock_lt_of_date_eq (hfirst.date.trans hsecond.date.symm) hlt
        exact Span.minutes_mono (Int.sub_le_sub_right this.le _)
      · rw [hsecond.arrivalCost_eq]
        exact arrivalCost_le_fullDay

end Cost

section Encroachment

variable (h : e.DayOff day off after)
include h

theorem DayOff.ne : off ≠ day := fun he => by
  have := h.rest
  rw [he, h.work] at this
  cases this

-- The evening counts only on the day before the day off.
theorem DayOff.eveningEncroachment_eq (hx : x.date = day ∨ x.date = off) :
    e.eveningEncroachment x = .ok (if x.date = day ∧ x.Late then
      some (Span.minutes (x.clock.micros - 22 * Span.hour)) else none) := by
  have hclock : (Clock.oclock 22 (by decide)).micros = 22 * Span.hour := rfl
  rcases hx with hx | hx
  · rw [eveningEncroachment, hx, h.next, Result.ok_bind]
    simp only [h.rest, Instant.wall_sub_withClock, Instant.withClock_lt_iff, hclock, Instant.Late]
    split <;> simp_all [pure, Except.pure]
  · rw [eveningEncroachment, hx, h.next_off, Result.ok_bind]
    simp [h.work_after, h.ne, pure, Except.pure]

theorem DayOff.not_takesEvening (hx : x.date = off) : ¬TakesEvening day x := fun he =>
  h.ne (hx.symm.trans he.date)

-- On the day off an arrival takes a day if it is on a day off in UTC too.
theorem DayOff.takesDay_iff (hx : x.date = off) : e.TakesDay day t x ↔ e.isAvailable t.date = false :=
  ⟨fun hday => hday.off, fun ht => ⟨fun hlate => h.ne (hx.symm.trans hlate.1), ht⟩⟩

theorem DayOff.encroachment_eq (hf : e.LeavesFreely zone f) (hx : t.inZone zone = .ok x)
    (hdate : x.date = day ∨ x.date = off) :
    e.encroachment zone { f with arrival := t } = .ok (e.arrivalCost day t x) := by
  obtain ⟨departure, before, hdeparture, hbefore, hwork⟩ := hf
  have hmorning : e.morningEncroachment departure = .ok none := by
    rw [morningEncroachment, hbefore, Result.ok_bind, hwork]
    rfl
  rw [encroachment, hdeparture, Result.ok_bind, hmorning, Result.ok_bind]
  dsimp only
  rw [hx, Result.ok_bind, h.eveningEncroachment_eq hdate, Result.ok_bind, arrivalCost]
  split_ifs <;> simp_all [Flight.arrivalDate, pure, Except.pure]

-- A flight may arrive at two times, the second one later, the first before a single day off, and the
-- second before it or on it, by local time. Of what the flight takes from days off:
-- 1. the later arrival takes no less, if it takes a day where the earlier one does, and something where
--    the earlier one takes a part of the evening, and only then
-- 2. on the day off, it takes something if in UTC it is on a day off, and only then
-- 3. so it takes no less, and something on the day off, where UTC shows the local dates
theorem DayOff.encroachment_of_later_arrival (hf : e.LeavesFreely zone f) (hx : t.inZone zone = .ok x)
    (hy : u.inZone zone = .ok y) (hlt : t.wall < u.wall) (hdate : x.date = day)
    (hdate' : y.date = day ∨ y.date = off) :
    ∃ m n, e.encroachment zone { f with arrival := t } = .ok m ∧
      e.encroachment zone { f with arrival := u } = .ok n ∧
      (m ≤ n ↔ (e.TakesDay day t x → e.TakesDay day u y) ∧
        (TakesEvening day x → TakesEvening day y ∨ e.TakesDay day u y)) ∧
      (y.date = off → (0 < n ↔ e.isAvailable u.date = false)) ∧
      (t.date = x.date → u.date = y.date → m ≤ n ∧ (y.date = off → 0 < n)) := by
  have hiff : e.arrivalCost day t x ≤ e.arrivalCost day u y ↔ _ :=
    arrivalCost_le_iff (Instant.wall_lt_of_inZone hx hy hlt)
  have hoff : y.date = off → (0 < e.arrivalCost day u y ↔ e.isAvailable u.date = false) := fun hy => by
    rw [arrivalCost_pos_iff, h.takesDay_iff hy, or_iff_left (h.not_takesEvening hy)]
  refine ⟨_, _, h.encroachment_eq hf hx (.inl hdate), h.encroachment_eq hf hy hdate', hiff, hoff,
    fun ht hu => ⟨hiff.2 ⟨?_, ?_⟩, fun hy => (hoff hy).2 (by rw [hu, hy, h.rest])⟩⟩
  · intro hday
    -- the day of the first arrival is a day of work
    have := hday.off
    rw [ht, hdate, h.work] at this
    cases this
  · intro hevening
    rcases hdate' with hdate' | hdate'
    · have := Instant.clock_lt_of_date_eq (hdate.trans hdate'.symm) (Instant.wall_lt_of_inZone hx hy hlt)
      exact .inl ⟨hdate', hevening.minute.trans this.le⟩
    · exact .inr ((h.takesDay_iff hdate').2 (by rw [hu, hdate', h.rest]))

end Encroachment

end Employee

-- An employee with a Tuesday off, and a flight of Monday evening.
def Employee.resting : Employee :=
  ⟨"E", .null, .text "A", [], [], [], [.after 739040], .empty⟩

def Flight.homeward : Flight where
  number := "1"
  origin := .text "A"
  destination := .text "A"
  departure := .ofDate (.after 739039) (.after 18 0 0)
  arrival := .ofDate (.after 739039) (.after 20 0 0)
  aircraft := .null
  registration := .null

namespace Employee

theorem dayOff_resting : resting.DayOff (.after 739039) (.after 739040) (.after 739041) := by
  constructor <;> decide +kernel

theorem leavesFreely_homeward : resting.LeavesFreely .crew .homeward :=
  ⟨_, .after 739038, rfl, by decide +kernel, by decide +kernel⟩

-- Where the crew lives it is half past midnight on Tuesday, but in UTC it is still Monday: the arrival
-- takes nothing, and an hour earlier it takes an hour and a half.
theorem encroachment_past_midnight : ∃ t u x y, resting.DayOff (.after 739039) (.after 739040)
      (.after 739041) ∧ resting.LeavesFreely .crew .homeward ∧ t.inZone .crew = .ok x ∧
    u.inZone .crew = .ok y ∧ t.wall < u.wall ∧ x.date = .after 739039 ∧ y.date = .after 739040 ∧
    resting.encroachment .crew { Flight.homeward with arrival := t } = .ok 90 ∧
    resting.encroachment .crew { Flight.homeward with arrival := u } = .ok 0 :=
  ⟨.ofDate (.after 739039) (.after 21 30 0), .ofDate (.after 739039) (.after 22 30 0), _, _,
    dayOff_resting, leavesFreely_homeward, rfl, rfl, by decide +kernel⟩

-- Two hours later it is Tuesday in UTC too, and the arrival takes the whole day.
theorem encroachment_of_later_arrival_homeward : ∃ t u x y m n, resting.DayOff (.after 739039)
      (.after 739040) (.after 739041) ∧ resting.LeavesFreely .crew .homeward ∧ t.inZone .crew = .ok x ∧
    u.inZone .crew = .ok y ∧ t.wall < u.wall ∧ x.date = .after 739039 ∧ y.date = .after 739040 ∧
    resting.encroachment .crew { Flight.homeward with arrival := t } = .ok m ∧
    resting.encroachment .crew { Flight.homeward with arrival := u } = .ok n ∧ t.date = x.date ∧
    u.date = y.date ∧ m ≤ n ∧ 0 < n := by
  obtain ⟨m, n, hm, hn, -, -, hle⟩ := dayOff_resting.encroachment_of_later_arrival leavesFreely_homeward
    (t := .ofDate (.after 739039) (.after 21 30 0)) (u := .ofDate (.after 739040) (.after 0 30 0))
    rfl rfl (by decide +kernel) (by decide +kernel) (.inr (by decide +kernel))
  obtain ⟨hle, hpos⟩ := hle (by decide +kernel) (by decide +kernel)
  exact ⟨_, _, _, _, m, n, dayOff_resting, leavesFreely_homeward, rfl, rfl, by decide +kernel,
    by decide +kernel, by decide +kernel, hm, hn, by decide +kernel, by decide +kernel, hle,
    hpos (by decide +kernel)⟩

end Employee
end CrewRoster
