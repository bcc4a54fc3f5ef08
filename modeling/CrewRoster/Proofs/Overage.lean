import CrewRoster.Proofs.RestAhead

namespace CrewRoster

-- When the crew of a leg signs in, as the clocks of a zone show it.
def Seat.signInAt (s : Seat) (zone : Zone) : ℤ :=
  s.flight.departure.wall - 30 * Span.minute + zone.offset

-- From the sign-in for one leg to the arrival of another.
def Seat.periodTo (first last : Seat) : Span :=
  last.flight.arrival.wall - first.flight.departure.wall + 30 * Span.minute

-- How many times ten minutes a period is longer than its limit.
def Span.overage (period limit : Span) : ℤ :=
  if period ≤ limit then 0 else (period - limit) / (10 * Span.minute)

namespace Duty

variable {d : Duty} {first last : Seat} {limits : DutyLimits} {zone : Zone}

theorem localClock_eq {t : Instant} (hlow : 0 ≤ t.wall + zone.offset)
    (hhigh : t.wall + zone.offset < Span.calendar) :
    ∃ clock, localClock zone t = .ok clock ∧ clock.zone = none ∧
      clock.micros = (t.wall + zone.offset) % Span.day :=
  ⟨_, by rw [localClock, Instant.inZone_eq hlow hhigh, Result.ok_bind]; rfl, rfl, rfl⟩

theorem pointsOverLimit_of_idle (h : d.seats = []) : d.pointsOverLimit limits zone = .ok 0 := by
  simp [pointsOverLimit, isFlightDuty, h, pure, Except.pure]

theorem flightDutyPeriod_eq (hc : d.Current) (hf : d.first? = some first) (hl : d.last? = some last)
    (hfirst : first.flight.Plain) (hlast : last.flight.Plain) :
    d.flightDutyPeriod = .ok (some (first.periodTo last)) := by
  obtain ⟨⟨t, ht, hstart⟩, -, harrival, -⟩ := hc.flown first hf last hl
  obtain ⟨hzone, hwall⟩ := Instant.of_plus ht
  have hminus := Instant.minus_of_naive hlast.arrival (hzone.trans hfirst.departure)
  have heq : last.flight.arrival.wall - t.wall = first.periodTo last := by
    rw [hwall, Seat.periodTo, Flight.signIn]
    ring
  simp only [flightDutyPeriod, hstart, harrival, hminus, Except.map, heq]

theorem pointsOverLimit_eq (hc : d.Current) (hf : d.first? = some first) (hl : d.last? = some last)
    (hfirst : first.flight.Plain) (hlast : last.flight.Plain)
    (hlimits : ∀ rule ∈ limits, rule.start.zone = none ∧ rule.finish.zone = none)
    (hlow : 0 ≤ first.signInAt zone) (hhigh : first.signInAt zone < Span.calendar)
    (hspan : first.periodTo last - limits.limitAt (first.signInAt zone % Span.day) d.seats.length < 2 ^ 53) :
    d.pointsOverLimit limits zone = .ok (Span.overage (first.periodTo last)
      (limits.limitAt (first.signInAt zone % Span.day) d.seats.length)) := by
  obtain ⟨⟨t, ht, hstart⟩, -⟩ := hc.flown first hf last hl
  obtain ⟨hzone, hwall⟩ := Instant.of_plus ht
  have hsign : first.signInAt zone = t.wall + zone.offset := by
    rw [hwall, Seat.signInAt, Flight.signIn, Int.sub_eq_add_neg]
  rw [hsign] at hlow hhigh hspan ⊢
  obtain ⟨clock, hclock, hnaive, hmicros⟩ := localClock_eq hlow hhigh
  have hperiod := flightDutyPeriod_eq hc hf hl hfirst hlast
  have hlimit : d.periodLimit limits zone t =
      .ok (limits.limitAt ((t.wall + zone.offset) % Span.day) d.seats.length) := by
    rw [periodLimit, hclock, Result.ok_bind, ← hmicros]
    exact DutyLimits.limitFor_eq hnaive hlimits
  have hflight : d.isFlightDuty = true := by
    have := List.ne_nil_of_mem (mem_of_first? hf)
    simpa [isFlightDuty] using this
  rw [pointsOverLimit, hflight, hstart]
  simp only [hperiod, hlimit, Result.ok_bind, Span.overage]
  split
  case isTrue => rfl
  case isFalse hover =>
    have hpos := sub_pos.2 (not_le.1 hover)
    have hcheck : Span.check (first.periodTo last -
        limits.limitAt ((t.wall + zone.offset) % Span.day) d.seats.length) =
        .ok (first.periodTo last - limits.limitAt ((t.wall + zone.offset) % Span.day) d.seats.length) :=
      if_pos ⟨hpos.le.trans' (by decide), hspan.trans (by decide)⟩
    rw [hcheck, Result.ok_bind, Span.minutes_eq_ediv hpos.le hspan, Int.fdiv_eq_ediv_of_nonneg _ (by decide),
      Int.ediv_ediv_of_nonneg (by decide)]
    rfl

end Duty

namespace Ledger

variable {r : Roster} {l : Ledger} {folder : Folder} {scenario : Scenario} {solved : Bool} {id : String}
  {e : Employee} {day : Date} {sorted : List Assignment} {limits : DutyLimits} {s : Seat} {d : Duty}

-- The seats on which an employee is to fly on a day, in the order in which all are given. Between the two
-- halves of a change nobody has the seat.
def heldOn (l : Ledger) (sorted : List Assignment) (id : String) (day : Date) : List Seat :=
  (sorted.filter fun a =>
    a.owner = some id ∧ l.pending ≠ some a.seat.id ∧ a.seat.departureDate = day).map (·.seat)

namespace Listing

variable (h : l.Listing)
include h

theorem mem_heldOn (hperm : sorted.Perm l.roster.assignments.values) :
    s ∈ l.heldOn sorted id day ↔ l.roster.Lists id day s := by
  simp only [heldOn, List.mem_map, List.mem_filter, decide_eq_true_eq, hperm.mem_iff]
  constructor
  · rintro ⟨a, ⟨ha, howner, hn, hday⟩, rfl⟩
    obtain ⟨k, ha⟩ := Registry.mem_values.1 ha
    exact (h.listed ha id day).2 ⟨h.seatId ha ▸ hn, howner, hday.symm⟩
  · intro hs
    obtain ⟨a, ha, rfl⟩ := h.known hs
    obtain ⟨hn, howner, hday⟩ := (h.listed ha id day).1 hs
    exact ⟨a, ⟨Registry.mem_values.2 ⟨_, ha⟩, howner, hn, hday.symm⟩, rfl⟩

theorem seats_eq_heldOn (hperm : sorted.Perm l.roster.assignments.values)
    (ho : Seat.Ordered (sorted.map (·.seat))) (hd : l.roster.dutyAt id day = some d) :
    d.seats = l.heldOn sorted id day := by
  refine (h.ordered hd).eq_of_mem_iff (ho.sublist (List.filter_sublist.map _)) fun s => ?_
  rw [h.mem_heldOn hperm]
  simp [Roster.Lists, hd]

end Listing

-- Whatever was done to a roster that was loaded, the points of an employee's duty on a day
-- 1. count how many times ten minutes the time from the first sign-in to the last arrival is longer than the
--    limit for as many legs and the local time of the sign-in
-- 2. are none where there are no legs, whatever there is to do on the ground
theorem Steps.overage_of_load (hload : loadInstance folder solved = .ok (scenario, r)) (hp : r.Plain)
    (hs : Steps (.ofRoster r) l) (he : l.roster.employees.get? id = some e)
    (hlimits : ∀ rule ∈ limits, rule.start.zone = none ∧ rule.finish.zone = none) (zone : Zone) :
    ∃ sorted, l.roster.sorted = .ok sorted ∧ ∀ day held, l.heldOn sorted id day = held →
      (∀ first last, held.head? = some first → held.getLast? = some last →
        0 ≤ first.signInAt zone → first.signInAt zone < Span.calendar →
        first.periodTo last - limits.limitAt (first.signInAt zone % Span.day) held.length < 2 ^ 53 →
        ∃ d, e.dutyOn day = some d ∧ d.pointsOverLimit limits zone = .ok (Span.overage
          (first.periodTo last) (limits.limitAt (first.signInAt zone % Span.day) held.length))) ∧
      (held = [] → ∀ d, e.dutyOn day = some d → d.pointsOverLimit limits zone = .ok 0) := by
  obtain ⟨h, hblank⟩ := hs.consistent_and_blank (consistent_of_loadInstance hload hp).1 hp
  have hplain : l.roster.Plain := hp.of_blank_eq hblank.symm
  obtain ⟨sorted, hsorted, hperm, ho⟩ := h.exists_sorted hplain.naive
  have hat : ∀ {day d}, e.dutyOn day = some d → l.roster.dutyAt id day = some d := fun hd =>
    Roster.dutyAt_eq_some.2 ⟨e, he, hd⟩
  have hseats : ∀ {day d}, e.dutyOn day = some d → d.seats = l.heldOn sorted id day := fun hd =>
    h.listing.seats_eq_heldOn hperm ho (hat hd)
  refine ⟨sorted, hsorted, ?_⟩
  rintro day _ rfl
  constructor
  · intro first last hfirst hlast hlow hhigh hspan
    obtain ⟨d, hd, -⟩ := (h.listing.mem_heldOn hperm).1 (List.mem_of_head? hfirst)
    have hday : e.dutyOn day = some d := by rwa [Roster.dutyAt, he] at hd
    rw [← hseats hday] at hfirst hlast hspan ⊢
    have hplain : ∀ s ∈ d.seats, s.flight.Plain := fun s hs => h.plain_of_lists hplain ⟨d, hd, hs⟩
    exact ⟨d, hday, Duty.pointsOverLimit_eq (h.current hd) hfirst hlast
      (hplain _ (List.mem_of_head? hfirst)) (hplain _ (List.mem_of_getLast? hlast)) hlimits hlow hhigh hspan⟩
  · intro hnone d hd
    exact Duty.pointsOverLimit_of_idle ((hseats hd).trans hnone)

end Ledger

-- Eight hours from ten on, and ten hours for a duty that starts between five and half past nine.
def DutyLimits.mornings : DutyLimits :=
  [⟨.after 10 0 0, .after 23 0 0, [some (8 * Span.hour)]⟩,
    ⟨.after 5 0 0, .after 9 30 0, [some (10 * Span.hour)]⟩]

namespace Ledger

-- Where the crew lives clocks show half past nine at the sign-in, so the second limit is the one that counts.
-- Half an hour too long gives three points.
theorem Steps.overage_of_load_journey : ∃ scenario r l e d,
    loadInstance .journey false = .ok (scenario, r) ∧ r.Plain ∧ Steps (.ofRoster r) l ∧
    l.roster.employees.get? "E" = some e ∧ e.dutyOn (.after 739039) = some d ∧
    d.pointsOverLimit .mornings .crew = .ok 3 := by
  obtain ⟨scenario, r, l, e, x, hload, hp, hre, hremains, he, -, hx, hseats, -⟩ := monday_journey
  have hs : Steps (.ofRoster r) l := hre.steps
  have hlimits : ∀ rule ∈ DutyLimits.mornings, rule.start.zone = none ∧ rule.finish.zone = none := by
    decide
  obtain ⟨sorted, hsorted, hall⟩ := overage_of_load hload hp hs he hlimits .crew
  obtain ⟨sorted', hsorted', hperm, ho⟩ := hremains.consistent.exists_sorted hremains.plain.naive
  obtain rfl := Except.ok.inj (hsorted.symm.trans hsorted')
  have hheld : l.heldOn sorted "E" (.after 739039) = [Contents.monday.seat] :=
    (hremains.consistent.listing.seats_eq_heldOn hperm ho hx).symm.trans hseats
  obtain ⟨d, hd, hpoints⟩ := (hall _ _ hheld).1 _ _ rfl rfl (by decide +kernel) (by decide +kernel)
    (by decide +kernel)
  exact ⟨scenario, r, l, e, d, hload, hp, hs, he, hd, hpoints.trans (by decide +kernel)⟩

end Ledger

end CrewRoster
