import CrewRoster.Proofs.Calendar
import CrewRoster.Proofs.Edit
import CrewRoster.Proofs.Limits
import CrewRoster.Proofs.Minutes
import CrewRoster.Proofs.Overlap
import CrewRoster.Rules.Connections

namespace CrewRoster

open Result (Yields)

-- The length of the calendar.
def Span.calendar : Span := 3652059 * day

theorem Span.calendar_eq : calendar = 315537897600000000 := by decide

namespace Date

variable {day : Date}

-- There is a day before, and a day after.
def Inside (day : Date) : Prop := 1 < day.number ∧ day.number < 3652059

theorem next_yields (h : day.number < 3652059) : Yields day.next fun d => d.number = day.number + 1 := by
  have hn : 1 ≤ day.number + 1 ∧ day.number + 1 ≤ 3652059 := by
    have := day.one_le
    omega
  rw [next, plus, ofNumber?, dif_pos hn]
  exact .ok rfl

theorem previous_yields (h : 1 < day.number) :
    Yields day.previous fun d => d.number = day.number - 1 := by
  have hn : 1 ≤ day.number + -1 ∧ day.number + -1 ≤ 3652059 := by
    have := day.le_last
    omega
  rw [previous, plus, ofNumber?, dif_pos hn]
  exact .ok rfl

end Date

namespace Instant

variable {t u : Instant} {s : Span}

theorem comparable_of_naive (ht : t.zone = none) (hu : u.zone = none) : t.comparable u = true := by
  simp [comparable, ht, hu]

theorem minus_of_naive (ht : t.zone = none) (hu : u.zone = none) : t.minus u = .ok (t.wall - u.wall) := by
  rw [minus_of_comparable (comparable_of_naive ht hu), position_of_plain ht, position_of_plain hu]

theorem abs_wall_sub_le (t u : Instant) : |t.wall - u.wall| ≤ Span.calendar := by
  have h₁ := t.nonneg
  have h₂ := t.lt_end
  have h₃ := u.nonneg
  have h₄ := u.lt_end
  refine abs_le.2 ?_
  dsimp only [Span.calendar, Span] at *
  omega

theorem minus_yields (ht : t.zone = none) (hu : u.zone = none) :
    Yields (t.minus u) fun s => |s| ≤ Span.calendar := by
  rw [minus_of_naive ht hu]
  exact .ok (abs_wall_sub_le t u)

theorem one_lt_date (h : Span.day ≤ t.wall) : 1 < t.date.number := by
  have := Int.ediv_le_ediv day_pos h
  rw [Int.ediv_self (by decide)] at this
  simp only [date]
  omega

theorem date_lt_last (h : t.wall < Span.calendar - Span.day) : t.date.number < 3652059 := by
  have hlt : t.wall < 3652058 * Span.day := by
    dsimp only [Span.calendar, Span] at *
    omega
  have := Int.ediv_lt_of_lt_mul day_pos hlt
  simp only [date]
  omega

theorem of_plus (h : t.plus s = .ok u) : u.zone = t.zone ∧ u.wall = t.wall + s := by
  rw [plus, Result.elim_eq_ok, ofWall?] at h
  split at h
  case isTrue => cases h; exact ⟨rfl, rfl⟩
  case isFalse => cases h

theorem inZone_eq {zone : Zone} (hlow : 0 ≤ t.wall + zone.offset)
    (hhigh : t.wall + zone.offset < Span.calendar) :
    t.inZone zone = .ok ⟨t.wall + zone.offset, some zone, hlow, hhigh⟩ := by
  rw [inZone, ofWall?, dif_pos ⟨hlow, hhigh⟩]
  rfl

-- A zone is less than a day from UTC.
theorem inZone_yields (zone : Zone) (hlow : Span.day ≤ t.wall)
    (hhigh : t.wall < Span.calendar - Span.day) :
    Yields (t.inZone zone) fun u => u.wall = t.wall + zone.offset := by
  have hwall : 0 ≤ t.wall + zone.offset ∧ t.wall + zone.offset < Span.calendar := by
    have h₁ := zone.gt_day
    have h₂ := zone.lt_day
    dsimp only [Span.calendar, Span] at *
    omega
  exact ⟨_, inZone_eq hwall.1 hwall.2, rfl⟩

end Instant

-- A flight without zones, two days from the ends of the calendar, between airports that can be looked up.
structure Flight.Inside (f : Flight) : Prop where
  departure : f.departure.zone = none
  arrival : f.arrival.zone = none
  later : 2 * Span.day ≤ f.departure.wall
  airborne : f.departure.wall < f.arrival.wall
  earlier : f.arrival.wall < Span.calendar - 2 * Span.day
  origin : f.origin.isScalar = true
  destination : f.destination.isScalar = true

namespace Flight.Inside

variable {f : Flight} (h : f.Inside)
include h

theorem plain : f.Plain := by
  have hlow := h.later
  have hmid := h.airborne
  have hhigh := h.earlier
  have hcalendar := Span.calendar_eq
  have hin : 0 ≤ f.departure.wall + -signIn ∧ f.departure.wall + -signIn < 3652059 * Span.day := by
    simp only [signIn, Span.day, Span.hour, Span.minute, Span.second, Span] at *
    omega
  have hoff : 0 ≤ f.arrival.wall + signOff ∧ f.arrival.wall + signOff < 3652059 * Span.day := by
    simp only [signOff, Span.day, Span.hour, Span.minute, Span.second, Span] at *
    omega
  refine ⟨h.departure, h.arrival, ?_, ?_⟩
  · rw [Instant.plus, Instant.ofWall?, dif_pos hin]
    exact ⟨_, rfl⟩
  · rw [Instant.plus, Instant.ofWall?, dif_pos hoff]
    exact ⟨_, rfl⟩

theorem minutes_yields : Yields f.minutes fun n => |n| ≤ 2 ^ 100 :=
  (Instant.minus_yields h.arrival h.departure).bind fun s hs =>
    .ok (Span.abs_minutesBelow_le (hs.trans (by decide)))

end Flight.Inside

theorem Document.lookupKey_of_isScalar {l : Label} (h : l.isScalar = true) : l.lookupKey = .ok l.key := by
  rw [lookupKey, if_pos h]

-- The longest transfer for which sums of transfers are still near a double, however many seats there are.
def Reference.taxiLimit : ℤ := 2 ^ 900

theorem Reference.two_pow_100_le_taxiLimit : 2 ^ 100 ≤ taxiLimit :=
  pow_le_pow_right₀ one_le_two (by decide)

-- 1. no limit is between times with a zone
-- 2. limits are no longer than a length of time can be, and neither is what a duty may be beyond them
structure DutyLimits.Usable (limits : DutyLimits) : Prop where
  clocks : ∀ rule ∈ limits, rule.start.zone = none ∧ rule.finish.zone = none
  bounds : ∀ rule ∈ limits, ∀ legs,
    |rule.limitFor legs| ≤ 2 ^ 100 ∧ Span.calendar - rule.limitFor legs < 1000000000 * Span.day

-- The same of all limits, and transfers are not too long to be summed up.
structure Reference.Usable (r : Reference) : Prop where
  clocks : ∀ rule ∈ r.limits, rule.start.zone = none ∧ rule.finish.zone = none
  limits : ∀ rule ∈ r.limits, ∀ legs,
    |rule.limitFor legs| ≤ 2 ^ 100 ∧ Span.calendar - rule.limitFor legs < 1000000000 * Span.day
  taxi : ∀ {origin destination minutes}, r.taxi origin destination = some minutes →
    |minutes| ≤ taxiLimit

theorem Reference.checkWay_of_isScalar (r : Reference) {origin destination : Label}
    (ho : origin.isScalar = true) (hd : destination.isScalar = true) :
    r.checkWay origin destination = .ok () := by
  rw [checkWay]
  split
  · rfl
  · rw [Document.lookupKey_of_isScalar ho, Result.ok_bind]
    split
    · rfl
    · rw [Document.lookupKey_of_isScalar hd]
      split <;> rfl

theorem Reference.Usable.dutyLimits {r : Reference} (h : r.Usable) : DutyLimits.Usable r.limits :=
  ⟨h.clocks, h.limits⟩

-- A limit is one of those that are given, or the usual one.
theorem DutyLimits.Usable.limitFor_yields {limits : DutyLimits} {t : Clock} (h : limits.Usable)
    (ht : t.zone = none) (legs : ℕ) : Yields (limits.limitFor t legs) fun s =>
      |s| ≤ 2 ^ 100 ∧ Span.calendar - s < 1000000000 * Span.day := by
  refine ⟨_, DutyLimits.limitFor_eq ht h.clocks, ?_⟩
  rw [DutyLimits.limitAt_eq]
  cases hrule : limits.ruleAt t.micros with
  | none =>
    change |DutyLimit.fallback| ≤ 2 ^ 100 ∧ Span.calendar - DutyLimit.fallback < _
    exact ⟨by decide, by decide⟩
  | some rule => exact h.bounds rule (DutyLimits.mem_of_ruleAt hrule) legs

theorem Gap.find_eq {r : Reference} {s t : Seat} (hs : s.flight.destination.isScalar = true)
    (ht : t.flight.origin.isScalar = true) : find r s t = .ok (between? r s t) := by
  rw [find, r.checkWay_of_isScalar hs ht, Document.lookupKey_of_isScalar ht]
  simp only [Result.ok_bind]
  split
  · split <;> rfl
  · rfl

theorem Reference.taxiLimit_nonneg : |(0 : ℤ)| ≤ taxiLimit := by
  rw [abs_zero]
  exact pow_nonneg zero_le_two _

theorem Reference.Usable.abs_distancePoints_le {r : Reference} (h : r.Usable) {airport home : Label} :
    |Duty.distancePoints r airport home| ≤ taxiLimit := by
  rw [Duty.distancePoints]
  cases ht : r.taxi airport home with
  | none => exact le_trans (by decide) two_pow_100_le_taxiLimit
  | some minutes =>
    have hminutes := abs_le.1 (h.taxi ht)
    rw [Option.elim_some, Int.fdiv_eq_ediv_of_nonneg _ (by decide)]
    exact abs_le.2 (by omega)

theorem Interval.overlapMinutes_yields {a b : Interval} (has : a.start.zone = none)
    (haf : a.finish.zone = none) (hbs : b.start.zone = none) (hbf : b.finish.zone = none) :
    Yields (a.overlapMinutes b) fun n => |n| ≤ 2 ^ 100 := by
  rw [overlapMinutes_eq (onLine_of_naive has haf) (onLine_of_naive hbs hbf),
    Instant.position_of_plain has, Instant.position_of_plain haf, Instant.position_of_plain hbs,
    Instant.position_of_plain hbf]
  split_ifs
  case pos =>
    refine .ok (Span.abs_minutes_le (le_trans ?_ (by decide : Span.calendar ≤ _)))
    rcases min_choice a.finish.wall b.finish.wall with hmin | hmin <;>
      rcases max_choice a.start.wall b.start.wall with hmax | hmax <;> rw [hmin, hmax]
    all_goals exact Instant.abs_wall_sub_le ..
  case neg => exact .ok (by decide)

namespace Duty

variable {d : Duty} {e : Employee} {r : Reference} {t : Instant} {zone : Zone} {groundCode : Label}
  {limits : DutyLimits}

-- What a duty has to be for its figures:
-- 1. its date is not at an end of the calendar
-- 2. its flights are not either
-- 3. what was planned on the ground has no zones
-- 4. its times follow from these
structure Within (d : Duty) : Prop where
  date : d.date.Inside
  seats : ∀ s ∈ d.seats, s.flight.Inside
  ground : ∀ g ∈ d.ground, g.start.zone = none ∧ g.finish.zone = none
  current : d.Current

section Ends

variable {first last : Seat}

theorem mem_of_first? (h : d.first? = some first) : first ∈ d.seats := List.mem_of_mem_head? h

theorem mem_of_last? (h : d.last? = some last) : last ∈ d.seats := List.mem_of_mem_getLast? h

theorem exists_ends (h : d.seats ≠ []) :
    ∃ first last, d.first? = some first ∧ d.last? = some last :=
  ⟨_, _, List.head?_eq_some_head h, List.getLast?_eq_some_getLast h⟩

end Ends

namespace Within

section Times

variable (h : d.Within)
include h

theorem start_zone (ht : d.start = some t) : t.zone = none := by
  by_cases hs : d.seats = []
  · rw [(h.current.idle hs).1, Option.map_eq_some_iff] at ht
    obtain ⟨g, hg, rfl⟩ := ht
    exact (h.ground g hg).1
  · obtain ⟨first, last, hf, hl⟩ := exists_ends hs
    obtain ⟨⟨u, hu, hstart⟩, -⟩ := h.current.flown first hf last hl
    obtain rfl := Option.some.inj (hstart.symm.trans ht)
    rw [(Instant.of_plus hu).1]
    exact (h.seats first (mem_of_first? hf)).departure

theorem finish_zone (ht : d.finish = some t) : t.zone = none := by
  by_cases hs : d.seats = []
  · rw [(h.current.idle hs).2.1, Option.map_eq_some_iff] at ht
    obtain ⟨g, hg, rfl⟩ := ht
    exact (h.ground g hg).2
  · obtain ⟨first, last, hf, hl⟩ := exists_ends hs
    obtain ⟨-, ⟨u, hu, hfinish⟩, -⟩ := h.current.flown first hf last hl
    obtain rfl := Option.some.inj (hfinish.symm.trans ht)
    rw [(Instant.of_plus hu).1]
    exact (h.seats last (mem_of_last? hl)).arrival

theorem lastArrival_zone (ht : d.lastArrival = some t) : t.zone = none := by
  by_cases hs : d.seats = []
  · cases (h.current.idle hs).2.2.1.symm.trans ht
  · obtain ⟨first, last, hf, hl⟩ := exists_ends hs
    obtain ⟨-, -, hlast, -⟩ := h.current.flown first hf last hl
    obtain rfl := Option.some.inj (hlast.symm.trans ht)
    exact (h.seats last (mem_of_last? hl)).arrival

-- A duty with flights starts far enough from the ends of the calendar for the clocks of any zone.
theorem localClock_yields (hs : d.isFlightDuty = true) (ht : d.start = some t) (zone : Zone) :
    Yields (localClock zone t) fun c => c.zone = none := by
  have hs : d.seats ≠ [] := by simpa [isFlightDuty] using hs
  obtain ⟨first, last, hf, hl⟩ := exists_ends hs
  obtain ⟨⟨u, hu, hstart⟩, -⟩ := h.current.flown first hf last hl
  obtain rfl := Option.some.inj (hstart.symm.trans ht)
  have hin := h.seats first (mem_of_first? hf)
  have hwall := (Instant.of_plus hu).2
  have hlow := hin.later
  have hmid := hin.airborne
  have hhigh := hin.earlier
  refine (Instant.inZone_yields zone ?_ ?_).bind fun u _ => .ok rfl
  all_goals
    simp only [hwall, Flight.signIn, Span.day, Span.hour, Span.minute, Span.second, Span] at *
    omega

end Times

section Figures

variable (h : d.Within)
include h

theorem flightDutyPeriod_yields : Yields d.flightDutyPeriod fun period =>
    ∀ s ∈ period, |s| ≤ Span.calendar := by
  rw [flightDutyPeriod]
  split
  case h_1 start arrival hstart hlast =>
    obtain ⟨s, hs, hle⟩ := Instant.minus_yields (h.lastArrival_zone hlast) (h.start_zone hstart)
    rw [hs]
    exact .ok fun s' hs' => Option.some.inj hs' ▸ hle
  case h_2 => exact .ok fun s hs => nomatch hs

theorem blockMinutes_yields : Yields d.blockMinutes fun n => |n| ≤ 2 ^ 100 := by
  rw [blockMinutes]
  split
  case h_1 first last hf hl =>
    refine (Instant.minus_yields (h.seats last (mem_of_last? hl)).arrival
      (h.seats first (mem_of_first? hf)).departure).bind fun s hs => .ok ?_
    exact Span.abs_minutes_le (hs.trans (by decide))
  case h_2 => exact .ok (by decide)

theorem periodLimit_yields (hlimits : limits.Usable) (hs : d.isFlightDuty = true) (ht : d.start = some t)
    (zone : Zone) : Yields (d.periodLimit limits zone t) fun s =>
      |s| ≤ 2 ^ 100 ∧ Span.calendar - s < 1000000000 * Span.day :=
  (h.localClock_yields hs ht zone).bind fun _ hc => hlimits.limitFor_yields hc _

theorem pointsOverLimit_yields (hlimits : limits.Usable) (zone : Zone) :
    Yields (d.pointsOverLimit limits zone) fun n => |n| ≤ 2 ^ 100 := by
  rw [pointsOverLimit]
  split
  case h_1 start hs hstart =>
    refine h.flightDutyPeriod_yields.bind fun period hperiod => ?_
    cases period with
    | none => exact .ok (by decide)
    | some period =>
      have hperiod := abs_le.1 (hperiod period rfl)
      refine (h.periodLimit_yields hlimits hs hstart zone).bind fun limit ⟨hlimit, hbeyond⟩ => ?_
      have hlimit := abs_le.1 hlimit
      split
      case isTrue => exact .ok (by decide)
      case isFalse hle =>
        simp only [Span.calendar_eq, Span.day, Span.hour, Span.minute, Span.second, Span] at *
        have hcheck : -999999999 * Span.day ≤ period - limit ∧ period - limit < 1000000000 * Span.day := by
          simp only [Span.day, Span.hour, Span.minute, Span.second, Span]
          omega
        rw [Span.check, if_pos hcheck, Result.ok_bind]
        have hbeyond : |period - limit| ≤ 2 ^ 100 := abs_le.2 (by dsimp only [Span]; omega)
        have hminutes := abs_le.1 (Span.abs_minutes_le hbeyond)
        refine .ok (abs_le.2 ?_)
        rw [Int.fdiv_eq_ediv_of_nonneg _ (by decide)]
        omega
  case h_2 => exact .ok (by decide)

theorem minimumRest_yields (e : Employee) : Yields (d.minimumRest e) fun rest =>
    ∀ s ∈ rest, |s| ≤ Span.calendar := by
  rw [minimumRest]
  split
  case h_1 last start finish hl hstart hfinish =>
    refine (Instant.minus_yields (h.finish_zone hfinish) (h.start_zone hstart)).bind fun s hs => .ok ?_
    intro s' hs'
    obtain rfl := Option.some.inj hs'
    have hs := abs_le.1 hs
    refine abs_le.2 ⟨hs.1.trans (le_max_left _ _), max_le hs.2 ?_⟩
    split <;> decide
  case h_2 => exact .ok fun s hs => nomatch hs

theorem restLack_yields {next : Option Duty} (hn : ∀ n ∈ next, n.Within) (e : Employee) :
    Yields (d.restLack next e) fun n => |n| ≤ 2 ^ 100 := by
  rw [restLack]
  split
  case h_1 => exact .ok (by decide)
  case h_2 start hstart =>
    have hstart : start.zone = none := by
      obtain ⟨n, hnext, hstart⟩ := Option.bind_eq_some_iff.1 hstart
      split at hstart
      case isTrue => exact (hn n hnext).start_zone hstart
      case isFalse => cases hstart
    refine (h.minimumRest_yields e).bind fun required hrequired => ?_
    split
    case h_1 required finish hfinish =>
      refine (Instant.minus_yields hstart (h.finish_zone hfinish)).bind fun rest hrest => ?_
      have hrequired := abs_le.1 (hrequired required rfl)
      have hrest := abs_le.1 hrest
      split
      case isTrue => exact .ok (by decide)
      case isFalse =>
        refine .ok (Span.abs_minutes_le (abs_le.2 ?_))
        simp only [Span.calendar_eq, Span] at *
        omega
    case h_2 => exact .ok (by decide)

theorem noLocalNight_yields {previous : Option Duty} (hp : ∀ p ∈ previous, p.Within) :
    Yields (d.noLocalNight previous) fun _ => True := by
  rw [noLocalNight]
  split
  case h_1 finish start hfinish hstart =>
    obtain ⟨p, hprevious, hfinish⟩ := Option.bind_eq_some_iff.1 hfinish
    split
    case isTrue =>
      exact (Instant.minus_yields (h.start_zone hstart) ((hp p hprevious).finish_zone hfinish)).bind
        fun _ _ => .ok trivial
    case isFalse => exact .ok trivial
  case h_2 => exact .ok trivial

theorem groundOverlapMinutes_yields : Yields d.groundOverlapMinutes fun n => |n| ≤ 2 ^ 100 := by
  rw [groundOverlapMinutes]
  split
  case h_1 g first last hg hf hl =>
    obtain ⟨hs, hf'⟩ := h.ground g hg
    exact Interval.overlapMinutes_yields hs hf' (h.seats first (mem_of_first? hf)).departure
      (h.seats last (mem_of_last? hl)).arrival
  case h_2 => exact .ok (by decide)

section Home

variable (he : e.home.isScalar = true)
include he

theorem startPoints_eq : d.startPoints e r =
    .ok (d.first?.elim 0 fun s => distancePoints r s.flight.origin e.home) := by
  rw [startPoints]
  split
  case h_1 hf => rw [hf, Option.elim_none]
  case h_2 first hf =>
    rw [r.checkWay_of_isScalar (h.seats first (mem_of_first? hf)).origin he, hf]
    rfl

theorem endPoints_eq : d.endPoints e r =
    .ok (d.last?.elim 0 fun s => distancePoints r s.flight.destination e.home) := by
  rw [endPoints]
  split
  case h_1 hl => rw [hl, Option.elim_none]
  case h_2 last hl =>
    rw [r.checkWay_of_isScalar (h.seats last (mem_of_last? hl)).destination he, hl]
    rfl

theorem exists_homePoints : ∃ n, d.homePoints e r = .ok n := by
  rw [homePoints, h.startPoints_eq he, h.endPoints_eq he]
  exact ⟨_, rfl⟩

variable (hr : r.Usable)
include hr

theorem startPoints_yields : Yields (d.startPoints e r) fun n => |n| ≤ Reference.taxiLimit := by
  rw [h.startPoints_eq he]
  refine .ok ?_
  cases d.first? with
  | none => exact Reference.taxiLimit_nonneg
  | some s => exact hr.abs_distancePoints_le

theorem endPoints_yields : Yields (d.endPoints e r) fun n => |n| ≤ Reference.taxiLimit := by
  rw [h.endPoints_eq he]
  refine .ok ?_
  cases d.last? with
  | none => exact Reference.taxiLimit_nonneg
  | some s => exact hr.abs_distancePoints_le

theorem homePoints_yields : Yields (d.homePoints e r) fun n => |n| ≤ 2 * Reference.taxiLimit :=
  (h.startPoints_yields he hr).bind fun a ha => (h.endPoints_yields he hr).bind fun b hb => .ok <| by
    have ha := abs_le.1 ha
    have hb := abs_le.1 hb
    exact abs_le.2 (by omega)

end Home

theorem isDayAfterOffOrGround_yields :
    Yields (d.isDayAfterOffOrGround e groundCode) fun _ => True :=
  (Date.next_yields h.date.2).bind fun _ _ => .ok trivial

theorem isDayBeforeOffOrGround_yields :
    Yields (d.isDayBeforeOffOrGround e groundCode) fun _ => True :=
  (Date.previous_yields h.date.1).bind fun _ _ => .ok trivial

end Figures

end Within

end Duty

theorem abs_foldr_add_le {ns : List ℤ} {b : ℤ} (h : ∀ n ∈ ns, |n| ≤ b) :
    |ns.foldr (· + ·) 0| ≤ ns.length * b := by
  induction ns with
  | nil => simp
  | cons n ns ih =>
    obtain ⟨hn, hns⟩ := List.forall_mem_cons.1 h
    rw [List.foldr_cons, List.length_cons, Nat.cast_succ, add_one_mul, add_comm]
    exact (abs_add_le _ _).trans (add_le_add (ih hns) hn)

-- What `n` connections come to.
structure Connections.Within (n : ℕ) (c : Connections) : Prop where
  invalid : |c.invalid| ≤ n
  taxiMinutes : |c.taxiMinutes| ≤ n * Reference.taxiLimit

namespace Connections.Within

variable {r : Reference} {maxTaxi : ℤ} {c : Connections} {n : ℕ}

theorem add (h : c.Within n) (hr : r.Usable) (legs : Seat × Seat) :
    (Connections.add r maxTaxi c legs).Within (n + 1) := by
  obtain ⟨hi, ht⟩ := h
  have hone : ∀ {a b : ℤ}, |a| ≤ n * b → ∀ {m}, |m| ≤ b → |a + m| ≤ (n + 1 : ℕ) * b := by
    intro a b ha m hm
    push_cast
    rw [add_one_mul]
    exact (abs_add_le _ _).trans (add_le_add ha hm)
  have hstay := hone ht Reference.taxiLimit_nonneg
  have hmore : |c.invalid + 1| ≤ (n + 1 : ℕ) := by
    simpa using hone (b := 1) (by simpa using hi) (m := 1) (by simp)
  have hsame : |c.invalid| ≤ (n + 1 : ℕ) := hi.trans (by simp)
  rw [add_zero] at hstay
  rw [Connections.add]
  split
  case isTrue => exact ⟨hsame, hstay⟩
  case isFalse =>
    split
    case h_1 minutes hm =>
      split
      case isTrue => exact ⟨hmore, hstay⟩
      case isFalse => exact ⟨hsame, hone ht (hr.taxi hm)⟩
    case h_2 => exact ⟨hmore, hstay⟩

theorem foldl_add (h : c.Within n) (hr : r.Usable) (legs : List (Seat × Seat)) :
    (legs.foldl (Connections.add r maxTaxi) c).Within (n + legs.length) := by
  induction legs generalizing c n with
  | nil => exact h
  | cons p legs ih =>
    rw [List.length_cons, Nat.add_comm legs.length, ← Nat.add_assoc]
    exact ih (h.add hr p)

theorem mono {m : ℕ} (h : c.Within n) (hn : n ≤ m) : c.Within m where
  invalid := h.invalid.trans (by exact_mod_cast hn)
  taxiMinutes := h.taxiMinutes.trans
    (mul_le_mul_of_nonneg_right (by exact_mod_cast hn) (pow_nonneg zero_le_two _))

theorem ofLegs (hr : r.Usable) (maxTaxi : ℤ) (seats : List Seat) :
    (Connections.ofLegs r maxTaxi seats).Within seats.length := by
  have hzero : Connections.Within 0 ⟨0, 0⟩ := ⟨by simp, by simp⟩
  have hlen : (consecutive seats).length ≤ seats.length := by
    rw [consecutive, List.length_zip]
    exact Nat.min_le_left _ _
  exact (hzero.foldl_add hr (consecutive seats)).mono (by omega)

end Connections.Within

namespace Employee

variable {e : Employee} {r : Reference} {d : Duty} {f : Flight} {s : Seat} {p : Seat × Seat}

-- What an employee has to be for the figures of the roster: the home can be looked up, and the calendar is
-- not at an end of all dates.
structure Within (e : Employee) : Prop where
  home : e.home.isScalar = true
  duties : ∀ d ∈ e.calendar.duties, d.Within

namespace Within

variable (h : e.Within)
include h

theorem of_dutyOn {day : Date} (hd : e.dutyOn day = some d) : d.Within :=
  h.duties d (Calendar.mem_duties.2 ⟨_, hd⟩)

theorem seat (hs : s ∈ e.seats) : s.flight.Inside := by
  obtain ⟨d, hd, hs⟩ := List.mem_flatMap.1 hs
  exact (h.duties d hd).seats s hs

theorem dayAfter_yields (hd : d ∈ e.calendar.duties) :
    Yields (e.dayAfter d.date) fun next => ∀ n ∈ next, n.Within :=
  (Date.next_yields (h.duties d hd).date.2).bind fun _ _ => .ok fun _ hn => h.of_dutyOn hn

theorem dayBefore_yields (hd : d ∈ e.calendar.duties) :
    Yields (e.dayBefore d.date) fun previous => ∀ p ∈ previous, p.Within :=
  (Date.previous_yields (h.duties d hd).date.1).bind fun _ _ => .ok fun _ hp => h.of_dutyOn hp

theorem consecutive (hp : p ∈ CrewRoster.consecutive e.seats) :
    p.1.flight.Inside ∧ p.2.flight.Inside := by
  obtain ⟨h₁, h₂⟩ := List.of_mem_zip hp
  exact ⟨h.seat h₁, h.seat (List.mem_of_mem_tail h₂)⟩

theorem connections_yields (hr : r.Usable) (maxTaxi : ℤ) :
    Yields (e.connections r maxTaxi) fun c => c.Within e.seats.length := by
  have hways : Yields ((CrewRoster.consecutive e.seats).forM fun p =>
      r.checkWay p.1.flight.destination p.2.flight.origin) fun _ => True :=
    ⟨(), Result.forM_eq_ok.2 fun p hp =>
      r.checkWay_of_isScalar (h.consecutive hp).1.destination (h.consecutive hp).2.origin, trivial⟩
  exact hways.bind fun _ _ => .ok (.ofLegs hr maxTaxi e.seats)

theorem flightMinutes_yields : Yields e.flightMinutes fun n => |n| ≤ e.seats.length * 2 ^ 100 :=
  (Yields.mapM fun _ hs => (h.seat hs).minutes_yields).bind fun _ ⟨hlen, hns⟩ =>
    .ok (hlen ▸ abs_foldr_add_le hns)

end Within

section Encroachment

variable {t : Instant}

theorem morningEncroachment_yields (ht : Span.day ≤ t.wall) :
    Yields (e.morningEncroachment t) fun found => ∀ n ∈ found, |n| ≤ 2 ^ 100 := by
  refine (Date.previous_yields (Instant.one_lt_date ht)).bind fun day _ => ?_
  dsimp only
  split
  case isTrue =>
    refine .ok fun n hn => Option.some.inj hn ▸ ?_
    exact Span.abs_minutes_le ((Instant.abs_wall_sub_le _ _).trans (by decide))
  case isFalse => exact .ok fun n hn => nomatch hn

theorem eveningEncroachment_yields (ht : t.wall < Span.calendar - Span.day) :
    Yields (e.eveningEncroachment t) fun found => ∀ n ∈ found, |n| ≤ 2 ^ 100 := by
  refine (Date.next_yields (Instant.date_lt_last ht)).bind fun day _ => ?_
  dsimp only
  split
  case isTrue =>
    refine .ok fun n hn => Option.some.inj hn ▸ ?_
    exact Span.abs_minutes_le ((Instant.abs_wall_sub_le _ _).trans (by decide))
  case isFalse => exact .ok fun n hn => nomatch hn

theorem encroachment_yields (hf : f.Inside) (zone : Zone) :
    Yields (e.encroachment zone f) fun n => |n| ≤ 2 ^ 100 := by
  have hlow := hf.later
  have hmid := hf.airborne
  have hhigh := hf.earlier
  have hwest := zone.gt_day
  have heast := zone.lt_day
  have hday := Instant.day_pos
  refine (Instant.inZone_yields zone (t := f.departure) ?_ ?_).bind fun t ht =>
    (morningEncroachment_yields ?_).bind fun morning hm => ?_
  case refine_4 =>
    split
    case h_1 n => exact .ok (hm n rfl)
    case h_2 =>
      refine (Instant.inZone_yields zone (t := f.arrival) ?_ ?_).bind fun u hu =>
        (eveningEncroachment_yields ?_).bind fun evening hv => ?_
      case refine_4 =>
        split
        case h_1 n => exact .ok (hv n rfl)
        case h_2 =>
          refine .ok ?_
          split <;> decide
      all_goals
        dsimp only [Span] at *
        omega
  all_goals
    dsimp only [Span] at *
    omega

theorem Within.totalEncroachment_yields (h : e.Within) (zone : Zone) :
    Yields (e.totalEncroachment zone) fun n => |n| ≤ e.seats.length * 2 ^ 100 :=
  (Yields.mapM fun _ hs => encroachment_yields (h.seat hs) zone).bind fun _ ⟨hlen, hns⟩ =>
    .ok (hlen ▸ abs_foldr_add_le hns)

end Encroachment

section Gaps

theorem gap_yields (r : Reference) {s t : Seat} (hs : s.flight.Inside) (ht : t.flight.Inside) :
    Yields (Gap.find r s t) fun _ => True :=
  ⟨_, Gap.find_eq hs.destination ht.origin, trivial⟩

theorem Within.gaps_yields (h : e.Within) (r : Reference) : Yields (e.gaps r) fun _ => True :=
  (Yields.mapM (Q := fun _ => True) fun _ hp =>
    gap_yields r (h.consecutive hp).1 (h.consecutive hp).2).bind fun _ _ => .ok trivial

theorem seatBefore_yields {s : Seat} (hs : s.flight.Inside) {ds : List Duty} (hd : ∀ d ∈ ds, d.Within) :
    Yields (Calendar.seatBefore s ds) fun found => ∀ t ∈ found, t.flight.Inside := by
  induction ds with
  | nil => exact .ok fun t ht => nomatch ht
  | cons d ds ih =>
    obtain ⟨hd, hds⟩ := List.forall_mem_cons.1 hd
    rw [Calendar.seatBefore, Duty.checkOrder_of_plain (fun t ht => (hd.seats t ht).plain) hs.plain,
      Result.ok_bind]
    split
    case h_1 => exact ih hds
    case h_2 => exact .ok fun t ht => hd.seats t (List.mem_of_getElem? ht)

theorem seatAfter_yields {s : Seat} (hs : s.flight.Inside) {ds : List Duty} (hd : ∀ d ∈ ds, d.Within) :
    Yields (Calendar.seatAfter s ds) fun found => ∀ t ∈ found, t.flight.Inside := by
  induction ds with
  | nil => exact .ok fun t ht => nomatch ht
  | cons d ds ih =>
    obtain ⟨hd, hds⟩ := List.forall_mem_cons.1 hd
    rw [Calendar.seatAfter, Duty.checkOrder_of_plain (fun t ht => (hd.seats t ht).plain) hs.plain,
      Result.ok_bind]
    split
    case h_1 => exact ih hds
    case h_2 t ht => exact .ok fun u hu => Option.some.inj hu ▸ hd.seats t (List.mem_of_getElem? ht)

namespace Within

variable (h : e.Within) (hs : s.flight.Inside)
include h hs

theorem previousSeat_yields :
    Yields (e.calendar.previousSeat s) fun found => ∀ t ∈ found, t.flight.Inside :=
  seatBefore_yields hs fun d hd => h.duties d ((List.filter_sublist.map _).mem (List.mem_reverse.1 hd))

theorem nextSeat_yields :
    Yields (e.calendar.nextSeat s) fun found => ∀ t ∈ found, t.flight.Inside :=
  seatAfter_yields hs fun d hd => h.duties d ((List.filter_sublist.map _).mem hd)

theorem gapsAround_yields (r : Reference) : Yields (e.gapsAround r s) fun _ => True := by
  have hgap : ∀ {o : Option Seat} {f : Seat → Result (Option Gap)},
      (∀ t ∈ o, Yields (f t) fun _ => True) → Yields (o.mapM f) fun _ => True := by
    intro o f hf
    cases o with
    | none => exact .ok trivial
    | some t => exact (hf t rfl).bind fun _ _ => .ok trivial
  exact (h.previousSeat_yields hs).bind fun _ hbefore => (h.nextSeat_yields hs).bind fun _ hafter =>
    (hgap fun t ht => gap_yields r (hbefore t ht) hs).bind fun _ _ =>
      (hgap fun t ht => gap_yields r hs (hafter t ht)).bind fun _ _ => .ok trivial

end Within

end Gaps

end Employee

end CrewRoster
