import CrewRoster.Proofs.Listing

namespace CrewRoster.Ledger

-- What holds of a ledger whose owners are changed by its own means only:
-- 1. every seat that a duty lists is a seat of the roster
-- 2. a seat is listed by its owner's duty on the day of its departure, and by no other; a seat without an
--    owner and the pending seat are not listed at all
-- 3. every duty lists its seats in order, none of them twice
-- 4. the other fields of every duty follow from its seats
structure Consistent (l : Ledger) : Prop extends l.roster.WellFormed where
  known : ∀ {id day s}, l.roster.Lists id day s →
    ∃ a, l.roster.assignments.get? s.id = some a ∧ a.seat = s
  listed : ∀ {k a}, l.roster.assignments.get? k = some a → ∀ id day,
    l.roster.Lists id day a.seat ↔
      l.pending ≠ some k ∧ a.owner = some id ∧ day = a.seat.departureDate
  ordered : ∀ {id day d}, l.roster.dutyAt id day = some d → Seat.Ordered d.seats
  current : ∀ {id day d}, l.roster.dutyAt id day = some d → d.Current

variable {l l' : Ledger} {a : Assignment} {d : Duty} {emp : Employee} {k id : String} {day : Date}
  {s : Seat} {owner : Option String}

namespace Consistent

theorem listing (h : l.Consistent) : l.Listing :=
  ⟨h.toWellFormed, h.known, h.listed, h.ordered⟩

theorem of_listing (h : l.Listing)
    (hc : ∀ {id day d}, l.roster.dutyAt id day = some d → d.Current) : l.Consistent :=
  ⟨h.toWellFormed, h.known, h.listed, h.ordered, hc⟩

theorem of_eq (h : l.Consistent) (hr : l'.roster = l.roster) (hp : l'.pending = l.pending) :
    l'.Consistent :=
  .of_listing (h.listing.of_eq hr hp) (hr ▸ h.current)

section Facts

variable (h : l.Consistent)
include h

theorem plain_of_lists (hp : l.roster.Plain) (hs : l.roster.Lists id day s) : s.flight.Plain := by
  obtain ⟨a, ha, rfl⟩ := h.known hs
  exact hp _ a ha

theorem seats_eq_singleton (hd : l.roster.dutyAt id day = some d)
    (hs : ∀ t, l.roster.Lists id day t ↔ t = s) : d.seats = [s] := by
  refine (h.ordered hd).eq_of_mem_iff (List.pairwise_singleton _ s) fun t => ?_
  rw [List.mem_singleton, ← hs t]
  simp [Roster.Lists, hd]

theorem current_putDuty (he : l.roster.employees.get? k = some emp) (hc : d.Current)
    {d' : Duty} {day' : Date} (hd : (l.roster.putDuty k day d).dutyAt id day' = some d') : d'.Current := by
  rw [Roster.dutyAt_putDuty he] at hd
  split at hd
  case isTrue => exact Option.some.inj hd ▸ hc
  case isFalse => exact h.current hd

end Facts

section Release

variable (h : l.Consistent) (hp : l.roster.Plain) (hn : l.pending = none)
  (ha : l.roster.assignments.get? k = some a)
include h hp hn ha

-- A seat that has an owner is listed, so its release does not fail.
theorem release_owned (ho : a.owner = some id) :
    ∃ d, l.roster.dutyAt id a.seat.departureDate = some d ∧ a.seat ∈ d.seats ∧
      d.Remade (Duty.eraseSeat d.seats a.seat)
        (if Duty.eraseSeat d.seats a.seat = [] then Field.all else Field.times)
        (d.retract a.seat) ∧
      l.release a = { l with pending := some k }.record id a.seat.departureDate (d.retract a.seat) := by
  have hpending : l.pending ≠ some k := by simp [hn]
  obtain ⟨d, hd, hs⟩ := (h.listed ha id a.seat.departureDate).2 ⟨hpending, ho, rfl⟩
  have hseats : ∀ t ∈ d.seats, t.flight.Plain := fun _ ht => h.plain_of_lists hp ⟨d, hd, ht⟩
  have hr := Duty.remade_retract hseats (hp k a ha) hs (h.current hd)
  have hids : ∀ t ∈ d.seats, t.id = a.seat.id → t = a.seat := fun _ ht =>
    h.listing.eq_of_id ha ⟨d, hd, ht⟩
  have hc : d.contains a.seat = .ok true := by
    rw [Duty.contains_of_checkOrder (Duty.checkOrder_of_plain hseats (hp k a ha)),
      (Duty.isSome_indexOf? (h.ordered hd) hids).2 hs]
  refine ⟨d, hd, hs, hr, ?_⟩
  rw [release_of_listed hn ho hd hc, h.seatId ha]

theorem release_ok : ∃ l', l.release a = (l', .ok ()) ∧ l'.pending = some k ∧ l'.Consistent ∧
    l'.roster.assignments = l.roster.assignments := by
  have hlisting := h.listing.release ha
  cases ho : a.owner with
  | none =>
    have heq := release_of_unowned hn ho
    rw [heq] at hlisting
    exact ⟨_, heq, by rw [h.seatId ha], .of_listing hlisting h.current, rfl⟩
  | some id =>
    obtain ⟨d, hd, hs, hr, heq⟩ := h.release_owned hp hn ha ho
    obtain ⟨emp, he, -⟩ := Roster.dutyAt_eq_some.1 hd
    rw [record_of_wrote hr.wrote] at heq
    rw [heq] at hlisting
    exact ⟨_, heq, rfl, .of_listing hlisting (h.current_putDuty he hr.current), rfl⟩

end Release

section Settle

variable (h : l.Consistent) (hp : l.roster.Plain) (ha : l.roster.assignments.get? k = some a)
include h hp ha

theorem remade_of_settle (he : l.roster.employees.get? id = some emp) :
    (emp.ensure a.seat.departureDate).2.Remade
      (Duty.insertSeat (emp.ensure a.seat.departureDate).2.seats a.seat) Field.all
      ((emp.ensure a.seat.departureDate).2.enter a.seat) :=
  Duty.remade_enter (fun _ ht => h.plain_of_lists hp ((Roster.mem_seats_ensure he).1 ht)) (hp k a ha)

-- The pending seat can be entered for whoever exists.
theorem settle_ok (hn : l.pending = some k)
    (hk : ∀ id ∈ a.owner, ∃ emp, l.roster.employees.get? id = some emp) :
    ∃ l', l.settle a = (l', .ok ()) ∧ l'.pending = none ∧ l'.Consistent ∧
      l'.roster.assignments = l.roster.assignments := by
  have hlisting := h.listing.settle ha hp.naive
  rw [← h.seatId ha] at hn
  cases ho : a.owner with
  | none =>
    have heq := settle_of_unowned hn ho
    rw [heq] at hlisting
    exact ⟨_, heq, rfl, .of_listing hlisting h.current, rfl⟩
  | some id =>
    obtain ⟨emp, he⟩ := hk id ho
    have hr := h.remade_of_settle hp ha he
    have heq := settle_of_known hn ho he
    rw [record_of_wrote hr.wrote] at heq
    rw [heq] at hlisting
    exact ⟨_, heq, rfl, .of_listing hlisting (h.current_putDuty he hr.current), rfl⟩

end Settle

-- The owner of the pending seat may be anybody: no duty lists the seat.
theorem setOwner (h : l.Consistent) (hn : l.pending = some k) : (l.setOwner k owner).Consistent :=
  .of_listing (h.listing.setOwner hn) h.current

section Assign

variable (h : l.Consistent) (hp : l.roster.Plain) (ha : l.roster.assignments.get? k = some a)
include h hp ha

-- Whatever comes of a call, the ledger that it leaves behind is consistent.
theorem release : (l.release a).1.Consistent := by
  cases hn : l.pending with
  | some j => rwa [release_of_pending hn]
  | none =>
    obtain ⟨l', he, -, h', -⟩ := h.release_ok hp hn ha
    rwa [he]

theorem settle : (l.settle a).1.Consistent := by
  by_cases hn : l.pending = some k
  · by_cases hk : ∀ id ∈ a.owner, ∃ emp, l.roster.employees.get? id = some emp
    · obtain ⟨l', he, -, h', -⟩ := h.settle_ok hp ha hn hk
      rwa [he]
    · push Not at hk
      obtain ⟨id, ho, he⟩ := hk
      rwa [settle_of_unknown (h.seatId ha ▸ hn) ho (Option.eq_none_iff_forall_ne_some.2 he)]
  · rwa [settle_of_not_pending (h.seatId ha ▸ hn)]

-- A change of owner goes through when no other is under way and the new owner exists.
theorem assign_ok (owner : Option String) (hn : l.pending = none)
    (hk : ∀ id ∈ owner, ∃ emp, l.roster.employees.get? id = some emp) :
    ∃ l', l.assign a owner = (l', .ok ()) ∧ l'.pending = none ∧ l'.Consistent ∧
      l'.roster.assignments = (l.roster.setOwner k owner).assignments := by
  obtain ⟨l₁, h₁, hn₁, hc₁, ha₁⟩ := h.release_ok hp hn ha
  have hb : l₁.roster.blank = l.roster.blank := blank_of_release h₁
  have hp₁ : (l₁.setOwner k owner).roster.Plain :=
    hp.of_blank_eq (hb.symm.trans (Roster.blank_setOwner owner).symm)
  have hc₂ : (l₁.setOwner k owner).Consistent := hc₁.setOwner hn₁
  have ha₂ : (l₁.setOwner k owner).roster.assignments.get? k = some { a with owner } := by
    rw [Ledger.setOwner, Roster.get?_setOwner_of_some (ha₁ ▸ ha), if_pos rfl]
  have hassign : (l₁.setOwner k owner).roster.assignments = (l.roster.setOwner k owner).assignments :=
    congrArg (·.modify k fun a => { a with owner }) ha₁
  rw [assign_of_known hk, h₁, andThen, h.seatId ha, ← hassign]
  refine hc₂.settle_ok hp₁ ha₂ hn₁ fun id hid => ?_
  obtain ⟨emp, he⟩ := hk id hid
  obtain ⟨emp', he', -⟩ := Roster.exists_employee_of_blank_eq hb.symm he
  exact ⟨emp', he'⟩

end Assign

theorem kept : Kept fun l => l.Consistent ∧ l.roster.Plain where
  seatId h ha := h.1.seatId ha
  release h ha := ⟨h.1.release h.2 ha, h.2.of_blank_eq blank_release.symm⟩
  settle h ha := ⟨h.1.settle h.2 ha, h.2.of_blank_eq blank_settle.symm⟩
  setOwner owner h hn := ⟨h.1.setOwner hn, h.2.of_blank_eq (Roster.blank_setOwner owner).symm⟩

theorem assign (h : l.Consistent) (hp : l.roster.Plain)
    (ha : l.roster.assignments.get? k = some a) : (l.assign a owner).1.Consistent :=
  (kept.assign ⟨h, hp⟩ ha).1

end Consistent
end CrewRoster.Ledger
