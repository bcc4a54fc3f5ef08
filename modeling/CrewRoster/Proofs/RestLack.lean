import CrewRoster.Proofs.RestAhead

namespace CrewRoster

namespace Duty

variable {x y z : Duty} {e : Employee} {last : Seat} {t u start later : Instant} {due : Span}
  {next : Option Duty}

-- Something is planned for a duty, and it starts then.
def StartsAt (y : Duty) (start : Instant) : Prop :=
  y.hasCode = true ∧ y.start = some start ∧ start.zone = none

-- The rest after a duty from `t` to `u` takes as long as the duty did, and twelve hours at least if its last
-- leg ends at the home of the employee, ten if it ends elsewhere.
def restDue (e : Employee) (last : Seat) (t u : Instant) : Span :=
  max (u.wall - t.wall) (if last.flight.destination.same e.home then 12 * Span.hour else 10 * Span.hour)

-- What is missing of the rest that is due from `u` on when the next duty starts, which may be before `u`.
def restMissing (due : Span) (u start : Instant) : Span := max 0 (due - (start.wall - u.wall))

-- What a duty up to `u` says of the rest that is due before the next one:
-- 1. it lacks the whole minutes of what is missing
-- 2. it does not lack more when the next one starts later
-- 3. it lacks as many minutes less as the next one starts later, until it lacks none
structure Lacks (x : Duty) (e : Employee) (due : Span) (u : Instant) : Prop where
  whole : ∀ {y start}, y.StartsAt start → restMissing due u start < 2 ^ 53 →
    x.restLack (some y) e = .ok (restMissing due u start / Span.minute)
  antitone : ∀ {y z start later}, y.StartsAt start → z.StartsAt later → start.wall ≤ later.wall →
    ∃ m n, x.restLack (some y) e = .ok m ∧ x.restLack (some z) e = .ok n ∧ n ≤ m
  shift : ∀ {y z start later} (k : ℕ), y.StartsAt start → z.StartsAt later →
    later.wall = start.wall + k * Span.minute → restMissing due u start < 2 ^ 53 →
    ∃ m, x.restLack (some y) e = .ok m ∧ x.restLack (some z) e = .ok (max 0 (m - k))

theorem restMissing_nonneg : 0 ≤ restMissing due u start :=
  le_max_left _ _

theorem restMissing_anti (h : start.wall ≤ later.wall) : restMissing due u later ≤ restMissing due u start :=
  max_le_max_left 0 (sub_le_sub_left (Int.sub_le_sub_right h u.wall) due)

theorem restMissing_shift {k : ℕ} (h : later.wall = start.wall + k * Span.minute) :
    restMissing due u later / Span.minute = max 0 (restMissing due u start / Span.minute - k) := by
  rw [Span.minute_eq] at h ⊢
  rw [restMissing, restMissing, h]
  dsimp only [Span] at *
  omega

theorem restLack_of_idle (h : x.isFlightDuty = false) : x.restLack next e = .ok 0 := by
  have hseats : x.seats = [] := by simpa [isFlightDuty] using h
  rw [restLack]
  split
  · rfl
  · simp [minimumRest, last?, hseats, Result.ok_bind, pure, Except.pure]

-- Nothing is lacking before a duty that nothing is planned for, or that has no start.
theorem restLack_of_unplanned (h : ∀ y ∈ next, y.hasCode = true → y.start = none) :
    x.restLack next e = .ok 0 := by
  have hnone : (next.bind fun n => if n.hasCode then n.start else none) = none := by
    cases next with
    | none => rfl
    | some y => simpa using h y rfl
  rw [restLack, hnone]

theorem restLack_of_startsAt (hdue : x.minimumRest e = .ok (some due)) (hu : x.finish = some u)
    (hzone : u.zone = none) (hy : y.StartsAt start) :
    x.restLack (some y) e = .ok (Span.minutes (restMissing due u start)) := by
  obtain ⟨hcode, hstart, hnaive⟩ := hy
  rw [restLack, Option.bind_some, if_pos hcode, hstart]
  simp only [hdue, hu, Instant.minus_of_naive hnaive hzone, Result.ok_bind, restMissing]
  split
  case isTrue hle =>
    have hzero : Span.minutes 0 = 0 := by simpa using Span.minutes_mul (n := 0) (by norm_num)
    rw [max_eq_left (sub_nonpos.2 hle), hzero]
    rfl
  case isFalse hlt =>
    rw [max_eq_right (sub_pos.2 (not_le.1 hlt)).le]
    rfl

theorem lacks_of_minimumRest (hdue : x.minimumRest e = .ok (some due)) (hu : x.finish = some u)
    (hzone : u.zone = none) : x.Lacks e due u where
  whole hy hshort := by
    rw [restLack_of_startsAt hdue hu hzone hy, Span.minutes_eq_ediv restMissing_nonneg hshort]
  antitone hy hz hle :=
    ⟨_, _, restLack_of_startsAt hdue hu hzone hy, restLack_of_startsAt hdue hu hzone hz,
      Span.minutes_mono (restMissing_anti hle)⟩
  shift {y z start later} k hy hz hlater hshort := by
    have hle : start.wall ≤ later.wall := by
      rw [hlater]
      exact le_add_of_nonneg_right (mul_nonneg k.cast_nonneg (by decide))
    refine ⟨_, restLack_of_startsAt hdue hu hzone hy, ?_⟩
    rw [restLack_of_startsAt hdue hu hzone hz, Span.minutes_eq_ediv restMissing_nonneg hshort,
      Span.minutes_eq_ediv restMissing_nonneg ((restMissing_anti hle).trans_lt hshort),
      restMissing_shift hlater]

-- The rest that is due follows from the times of a duty and its last leg.
theorem Runs.lacks (h : x.Runs t last) (e : Employee) :
    ∃ u, x.finish = some u ∧ u.zone = none ∧ x.Lacks e (restDue e last t u) u := by
  obtain ⟨u, hu, hzone, hwall⟩ := h.finish
  refine ⟨u, hu, hzone, lacks_of_minimumRest ?_ hu hzone⟩
  rw [h.rest, restDue, hwall]
  rfl

end Duty

namespace Ledger

variable {r : Roster} {l : Ledger} {folder : Folder} {scenario : Scenario} {solved : Bool} {id : String}
  {e : Employee} {day : Date} {x : Duty}

-- Whatever was done to a roster that was loaded, the minutes of rest that a duty of an employee lacks
-- 1. are those that are missing of the rest due after a duty with flights, told by its start and its end and
--    by where its last leg ends
-- 2. are none for a duty without flights
-- 3. are none if there is no next duty, or nothing is planned for it, or it has no start
theorem Steps.restLack_of_load (hload : loadInstance folder solved = .ok (scenario, r)) (hp : r.Plain)
    (hs : Steps (.ofRoster r) l) (he : l.roster.employees.get? id = some e)
    (hx : e.dutyOn day = some x) :
    (x.isFlightDuty = true → ∃ t u last, x.start = some t ∧ x.finish = some u ∧
      (t.zone = none ∧ u.zone = none) ∧ Seat.IsLatest (· ∈ x.seats) (some last) ∧
      x.Lacks e (Duty.restDue e last t u) u) ∧
    (x.isFlightDuty = false → ∀ next, x.restLack next e = .ok 0) ∧
    ∀ next : Option Duty, (∀ y ∈ next, y.hasCode = true → y.start = none) →
      x.restLack next e = .ok 0 := by
  refine ⟨fun hf => ?_, fun hf _ => Duty.restLack_of_idle hf, fun _ => Duty.restLack_of_unplanned⟩
  have hat : l.roster.dutyAt id day = some x := Roster.dutyAt_eq_some.2 ⟨e, he, hx⟩
  obtain ⟨hc, hb⟩ := hs.consistent_and_blank (consistent_of_loadInstance hload hp).1 hp
  obtain ⟨t, last, hlast, hruns, -⟩ := hs.covers_of_load hload hp hat hf
  obtain ⟨u, hu, hzone, hlacks⟩ := hruns.lacks e
  have hlatest := (hc.ordered hat).isLatest_getLast? fun _ => Iff.rfl
  exact ⟨t, u, last, hruns.start.1, hu, ⟨hruns.start.2.1, hzone⟩, hlast ▸ hlatest, hlacks⟩

theorem home_journey {l : Ledger} (hload : loadInstance .journey false = .ok (scenario, r))
    (h : Remains r l) (he : l.roster.employees.get? id = some e) : e.home = .text "A" := by
  obtain ⟨e₀, he₀, hsame⟩ := Roster.exists_employee_of_blank_eq h.blank he
  obtain ⟨m, hm, hmember, -⟩ :=
    Contents.member_of_load (Contents.spelledBy_journey.loadInstance_eq ▸ hload) he₀
  obtain rfl := List.mem_singleton.1 hm
  exact congrArg Employee.home (hsame.symm.trans hmember)

-- The duty of Monday lasts eleven hours, up to half past six, and ends away from home. Before work on Tuesday
-- at four, half a minute past, an hour and a half of rest are missing, the half minute less. Work that starts
-- half an hour before the duty ends leaves no rest at all.
theorem Steps.restLack_of_load_journey : ∃ scenario r l e x,
    loadInstance .journey false = .ok (scenario, r) ∧ r.Plain ∧ Steps (.ofRoster r) l ∧
    l.roster.employees.get? "E" = some e ∧ e.dutyOn (.after 739039) = some x ∧
    ∀ finish,
      x.restLack (some (.ofGround "E"
        ⟨some (.text "GND"), .ofDate (.after 739040) (.after 4 0 30), finish⟩)) e = .ok 89 ∧
      x.restLack (some (.ofGround "E"
        ⟨some (.text "GND"), .ofDate (.after 739039) (.after 18 0 0), finish⟩)) e = .ok 690 ∧
      x.restLack none e = .ok 0 := by
  obtain ⟨scenario, r, l, e, x, hload, hp, hre, hremains, he, -, hx, hseats, hstart, hfinish⟩ :=
    monday_journey
  have hday : e.dutyOn (.after 739039) = some x := by rwa [Roster.dutyAt, he] at hx
  obtain ⟨hall, -, hnone⟩ := restLack_of_load hload hp hre.steps he hday
  obtain ⟨t, u, last, ht, hu, -, hlatest, hlacks⟩ := hall (by simp [Duty.isFlightDuty, hseats])
  obtain rfl := Option.some.inj (hstart.symm.trans ht)
  obtain rfl := Option.some.inj (hfinish.symm.trans hu)
  obtain rfl : last = Contents.monday.seat := by simpa [hseats] using hlatest.1
  have hdue : Duty.restDue e Contents.monday.seat (.ofDate (.after 739039) (.after 7 30 0))
      (.ofDate (.after 739039) (.after 18 30 0)) = 11 * Span.hour := by
    rw [Duty.restDue, home_journey hload hremains he]
    decide +kernel
  rw [hdue] at hlacks
  have hwork : ∀ start finish, start.zone = none →
      (Duty.ofGround "E" ⟨some (.text "GND"), start, finish⟩).StartsAt start := fun _ _ hzone =>
    ⟨rfl, rfl, hzone⟩
  refine ⟨scenario, r, l, e, x, hload, hp, hre.steps, he, hday, fun finish => ⟨?_, ?_, hnone none (by simp)⟩⟩
  · exact (hlacks.whole (hwork _ finish rfl) (by decide +kernel)).trans (by decide +kernel)
  · exact (hlacks.whole (hwork _ finish rfl) (by decide +kernel)).trans (by decide +kernel)

end Ledger

end CrewRoster
