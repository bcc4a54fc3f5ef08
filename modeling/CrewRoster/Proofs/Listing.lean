import CrewRoster.Proofs.Eligibility
import CrewRoster.Proofs.Outcome

namespace CrewRoster

theorem Flight.Plain.onLine {f : Flight} (h : f.Plain) : f.OnLine false :=
  ⟨by simp [h.departure], by simp [h.arrival]⟩

theorem Flight.OnLine.departure_zone {f : Flight} (h : f.OnLine false) : f.departure.zone = none := by
  simpa using h.departure

theorem Duty.checkOrder_of_onLine {d : Duty} {s : Seat} {zoned : Bool} {r : Seat.Key → Seat.Key → Bool}
    (hd : ∀ t ∈ d.seats, t.flight.OnLine zoned) (hs : s.flight.OnLine zoned) :
    d.checkOrder s r = .ok () :=
  checkOrder_of_comparable fun t ht => by
    simp [Seat.comparable, Instant.comparable, (hd t ht).departure, hs.departure]

namespace Roster

variable {r r' : Roster} {d : Duty} {e : Employee} {id : String} {day : Date} {s : Seat}

-- No flight of the roster has times with a zone.
def Naive (r : Roster) : Prop :=
  ∀ k a, r.assignments.get? k = some a → a.seat.flight.OnLine false

theorem Plain.naive (h : r.Plain) : r.Naive := fun k a ha => (h k a ha).onLine

theorem Naive.of_blank_eq (hn : r.Naive) (h : r.blank = r'.blank) : r'.Naive := by
  intro k a ha
  obtain ⟨a', ha', he⟩ := exists_of_blank_eq h.symm ha
  exact he ▸ hn k a' ha'

theorem WellFormed.exists_sorted (h : r.WellFormed) (hn : r.Naive) :
    ∃ sorted, r.sorted = .ok sorted ∧ sorted.Perm r.assignments.values ∧
      Seat.Ordered (sorted.map (·.seat)) := by
  have hline : ∀ a ∈ r.assignments.values, a.seat.flight.OnLine false := fun a ha => by
    obtain ⟨k, ha⟩ := Registry.mem_values.1 ha
    exact hn k a ha
  exact sortAssignments_eq hline h.pairwise_key

section Ensure

variable (h : r.WellFormed) (he : r.employees.get? id = some e)
include h he

theorem WellFormed.employee_ensure : (e.ensure day).2.employee = id := by
  cases hd : e.dutyOn day with
  | none => rw [Employee.ensure_of_none hd]; exact h.crewId he
  | some d => rw [Employee.ensure_of_some hd]; exact h.crewOf (dutyAt_eq_some.2 ⟨_, he, hd⟩)

theorem WellFormed.getD_dutyAt : (r.dutyAt id day).getD (.placeholder id day) = (e.ensure day).2 := by
  rw [dutyAt, he, Option.bind_some]
  cases hd : e.dutyOn day with
  | none => rw [Employee.ensure_of_none hd, h.crewId he]; rfl
  | some d => rw [Employee.ensure_of_some hd]; rfl

theorem WellFormed.enter_stays (hc : (e.ensure day).2.checkOrder s = .ok ()) :
    ((e.ensure day).2.enter s).duty.employee = id ∧ ((e.ensure day).2.enter s).duty.date = day :=
  ⟨(Duty.alike_enter hc).employee.trans (h.employee_ensure he),
    (Duty.alike_enter hc).date.trans (Employee.date_ensure (h.calendar_dated he))⟩

end Ensure

-- A duty that is edited stays with its employee and on its day.
theorem WellFormed.retract_stays (h : r.WellFormed) (hd : r.dutyAt id day = some d)
    (hc : d.checkOrder s = .ok ()) :
    (d.retract s).duty.employee = id ∧ (d.retract s).duty.date = day := by
  have hid : d.employee = id := h.crewOf hd
  have hday : d.date = day := h.dated hd
  exact ⟨(Duty.alike_retract hc).employee.trans hid, (Duty.alike_retract hc).date.trans hday⟩

end Roster

namespace Ledger

-- What the duties list in a ledger whose owners are changed by its own means only, also where the times of
-- a duty cannot be written:
-- 1. every seat that a duty lists is a seat of the roster
-- 2. a seat is listed by its owner's duty on the day of its departure, and by no other; a seat without an
--    owner and the pending seat are not listed at all
-- 3. every duty lists its seats in order, none of them twice
structure Listing (l : Ledger) : Prop extends l.roster.WellFormed where
  known : ∀ {id day s}, l.roster.Lists id day s →
    ∃ a, l.roster.assignments.get? s.id = some a ∧ a.seat = s
  listed : ∀ {k a}, l.roster.assignments.get? k = some a → ∀ id day,
    l.roster.Lists id day a.seat ↔
      l.pending ≠ some k ∧ a.owner = some id ∧ day = a.seat.departureDate
  ordered : ∀ {id day d}, l.roster.dutyAt id day = some d → Seat.Ordered d.seats

variable {l l' : Ledger} {a : Assignment} {d : Duty} {emp : Employee} {k id : String} {day : Date}
  {s t : Seat} {owner : Option String}

namespace Listing

-- Notices do not matter.
theorem of_eq (h : l.Listing) (hr : l'.roster = l.roster) (hp : l'.pending = l.pending) :
    l'.Listing := by
  obtain ⟨r, p, ns⟩ := l
  obtain ⟨r', p', ns'⟩ := l'
  dsimp only at hr hp
  subst hr hp
  exact ⟨h.toWellFormed, h.known, h.listed, h.ordered⟩

section Facts

variable (h : l.Listing)
include h

-- Among the seats of a duty and a seat of the roster, ids tell seats apart, and so do keys.
theorem eq_of_id (ha : l.roster.assignments.get? k = some a) (ht : l.roster.Lists id day t)
    (hid : t.id = a.seat.id) : t = a.seat := by
  obtain ⟨b, hb, rfl⟩ := h.known ht
  rw [hid, h.seatId ha, ha] at hb
  exact congrArg Assignment.seat (Option.some.inj hb).symm

theorem eq_of_key (ha : l.roster.assignments.get? k = some a) (ht : l.roster.Lists id day t)
    (hk : t.key = a.seat.key) : t = a.seat := by
  obtain ⟨b, hb, rfl⟩ := h.known ht
  exact h.key hb ha hk

-- A seat is listed nowhere but in its owner's duty on the day of its departure.
theorem eq_of_lists (ha : l.roster.assignments.get? k = some a) (hs : l.roster.Lists id day a.seat) :
    a.owner = some id ∧ day = a.seat.departureDate :=
  ((h.listed ha id day).1 hs).2

-- Once nothing is pending, what duties list is what their employees own.
theorem lists_iff (hn : l.pending = none) :
    l.roster.Lists id day s ↔ l.roster.Owns id s ∧ day = s.departureDate := by
  constructor
  · intro hs
    obtain ⟨⟨s, owner⟩, ha, rfl⟩ := h.known hs
    obtain ⟨rfl, hday⟩ := h.eq_of_lists ha hs
    exact ⟨⟨_, ha⟩, hday⟩
  · rintro ⟨⟨k, ha⟩, hday⟩
    exact (h.listed ha id day).2 ⟨by simp [hn], rfl, hday⟩

-- Whoever owns a seat is employed.
theorem exists_owner (hn : l.pending = none) (ha : l.roster.assignments.get? k = some a)
    (ho : a.owner = some id) : ∃ e, l.roster.employees.get? id = some e := by
  obtain ⟨d, hd, -⟩ := (h.listed ha id a.seat.departureDate).2 ⟨by simp [hn], ho, rfl⟩
  obtain ⟨e, he, -⟩ := Roster.dutyAt_eq_some.1 hd
  exact ⟨e, he⟩

theorem onLine_of_lists (hn : l.roster.Naive) (hs : l.roster.Lists id day s) :
    s.flight.OnLine false := by
  obtain ⟨a, ha, rfl⟩ := h.known hs
  exact hn _ a ha

theorem checkOrder_ensure (day : Date) (hn : l.roster.Naive) (ha : l.roster.assignments.get? k = some a)
    (he : l.roster.employees.get? id = some emp) : (emp.ensure day).2.checkOrder a.seat = .ok () :=
  Duty.checkOrder_of_onLine (fun _ ht => h.onLine_of_lists hn ((Roster.mem_seats_ensure he).1 ht))
    (hn k a ha)

theorem ordered_ensure (he : l.roster.employees.get? id = some emp) :
    Seat.Ordered (emp.ensure day).2.seats := by
  cases hd : emp.dutyOn day with
  | none => rw [Employee.ensure_of_none hd]; exact .nil
  | some d => rw [Employee.ensure_of_some hd]; exact h.ordered (Roster.dutyAt_eq_some.2 ⟨_, he, hd⟩)

end Facts

-- The listing stays right when one duty is replaced, if the new one differs from the old one in one seat of
-- the roster at most, and that seat is where it belongs afterwards.
theorem putDuty (h : l.Listing) (ha : l.roster.assignments.get? k = some a)
    (he : l.roster.employees.get? id = some emp) (hid : d.employee = id) (hday : d.date = day)
    (ho : Seat.Ordered d.seats) (hroster : l'.roster = l.roster.putDuty id day d)
    (hpending : ∀ j, j ≠ k → l.pending ≠ some j ∧ l'.pending ≠ some j)
    (hothers : ∀ t, t ≠ a.seat → (t ∈ d.seats ↔ l.roster.Lists id day t))
    (hseat : ∀ i day, l'.roster.Lists i day a.seat ↔
      l'.pending ≠ some k ∧ a.owner = some i ∧ day = a.seat.departureDate) : l'.Listing := by
  have hlists : ∀ i day t, t ≠ a.seat → (l'.roster.Lists i day t ↔ l.roster.Lists i day t) := by
    intro i day t ht
    rw [hroster, Roster.lists_putDuty he]
    split
    case isTrue hi => rw [hi.1, hi.2, hothers t ht]
    case isFalse => rfl
  have hassignments : l'.roster.assignments = l.roster.assignments := by rw [hroster]; rfl
  constructor
  case toWellFormed => exact hroster ▸ h.toWellFormed.putDuty he hid hday
  case known =>
    intro i day t ht
    rw [hassignments]
    by_cases hta : t = a.seat
    · exact ⟨a, by rw [hta, h.seatId ha, ha], hta.symm⟩
    · exact h.known ((hlists i day t hta).1 ht)
  case listed =>
    intro j b hb i day
    rw [hassignments] at hb
    by_cases hj : j = k
    · subst hj
      obtain rfl := Option.some.inj (ha.symm.trans hb)
      exact hseat i day
    · have hne : b.seat ≠ a.seat := fun he => hj (by rw [← h.seatId hb, he, h.seatId ha])
      obtain ⟨hp, hp'⟩ := hpending j hj
      rw [hlists i day _ hne, h.listed hb]
      simp [hp, hp']
  case ordered =>
    intro i day d' hd
    rw [hroster, Roster.dutyAt_putDuty he] at hd
    split at hd
    case isTrue => exact Option.some.inj hd ▸ ho
    case isFalse => exact h.ordered hd

-- A seat that nobody has is listed nowhere, pending or not.
theorem of_unowned (h : l.Listing) (ha : l.roster.assignments.get? k = some a) (ho : a.owner = none)
    (hroster : l'.roster = l.roster)
    (hpending : ∀ j, j ≠ k → l.pending ≠ some j ∧ l'.pending ≠ some j) : l'.Listing := by
  constructor
  case toWellFormed => exact hroster ▸ h.toWellFormed
  case known => exact hroster ▸ h.known
  case listed =>
    rw [hroster]
    intro j b hb i day
    rw [h.listed hb]
    by_cases hj : j = k
    · subst hj
      obtain rfl := Option.some.inj (ha.symm.trans hb)
      simp [ho]
    · simp [hpending j hj]
  case ordered => exact hroster ▸ h.ordered

section Halves

variable (h : l.Listing) (ha : l.roster.assignments.get? k = some a)
include h ha

-- The seat that is released was in its owner's duty, and is in no other.
theorem release : (l.release a).1.Listing := by
  have hrel := released l a
  generalize l.release a = o at hrel
  cases hrel
  case refused => exact h
  case unordered => exact h
  case unowned hn ho =>
    refine h.of_unowned ha ho rfl fun j hj => ?_
    rw [h.seatId ha]
    simp [hn, Ne.symm hj]
  case owned id d hn ho hd hc hi =>
    obtain ⟨emp, he, -⟩ := Roster.dutyAt_eq_some.1 hd
    have hs : a.seat ∈ d.seats :=
      (Duty.isSome_indexOf? (h.ordered hd) fun t ht => h.eq_of_id ha ⟨d, hd, ht⟩).1 hi
    have halike := Duty.alike_retract hc
    obtain ⟨hid, hday⟩ := h.retract_stays hd hc
    have hmem : ∀ {t}, t ∈ (d.retract a.seat).duty.seats ↔ t ∈ d.seats ∧ t ≠ a.seat := by
      rw [halike.seats]
      exact Duty.mem_eraseSeat (h.ordered hd) hs
    refine h.putDuty ha he hid hday (halike.seats ▸ Duty.eraseSeat_ordered (h.ordered hd) hs) rfl ?_ ?_ ?_
    · intro j hj
      change _ ∧ some a.seat.id ≠ some j
      rw [h.seatId ha]
      simp [hn, Ne.symm hj]
    · intro t ht
      rw [hmem]
      simp [Roster.Lists, hd, ht]
    · intro i day
      change (l.roster.putDuty id _ _).Lists i day a.seat ↔ some a.seat.id ≠ some k ∧ _
      rw [Roster.lists_putDuty he, hmem, h.seatId ha]
      split
      case isTrue => simp
      case isFalse hne =>
        have : ¬l.roster.Lists i day a.seat := fun hl => by
          obtain ⟨hi, hd⟩ := h.eq_of_lists ha hl
          exact hne ⟨Option.some.inj (hi.symm.trans ho), hd⟩
        simp [this]

section Entered

variable (day : Date) (hn : l.pending = some k) (he : l.roster.employees.get? id = some emp)
include hn he

-- The pending seat is listed nowhere, so it is new to the duty that it enters.
theorem not_mem_ensure : a.seat ∉ (emp.ensure day).2.seats := fun hs =>
  ((h.listed ha _ _).1 ((Roster.mem_seats_ensure he).1 hs)).1 hn

theorem mem_entered : s ∈ Duty.insertSeat (emp.ensure day).2.seats a.seat ↔
    s = a.seat ∨ l.roster.Lists id day s := by
  rw [Duty.mem_insertSeat (fun t ht => h.eq_of_id ha ((Roster.mem_seats_ensure he).1 ht))
    (h.not_mem_ensure ha day hn he), Roster.mem_seats_ensure he]

theorem ordered_entered : Seat.Ordered (Duty.insertSeat (emp.ensure day).2.seats a.seat) := by
  have hlists : ∀ t ∈ (emp.ensure day).2.seats, l.roster.Lists id day t := fun t =>
    (Roster.mem_seats_ensure he).1
  have hnew := h.not_mem_ensure ha day hn he
  exact Duty.insertSeat_ordered (fun t ht => h.eq_of_id ha (hlists t ht)) hnew (h.ordered_ensure he)
    fun t ht hk => hnew (h.eq_of_key ha (hlists t ht) hk ▸ ht)

end Entered

variable (hnaive : l.roster.Naive)
include hnaive

theorem settle : (l.settle a).1.Listing := by
  have hset := settled l a
  generalize l.settle a = o at hset
  cases hset
  case refused => exact h
  case unowned hn ho =>
    rw [h.seatId ha] at hn
    refine h.of_unowned ha ho rfl fun j hj => ?_
    simp [hn, Ne.symm hj]
  case owned id emp hn ho he =>
    rw [h.seatId ha] at hn
    have horder := h.checkOrder_ensure a.seat.departureDate hnaive ha he
    have halike := Duty.alike_enter horder
    obtain ⟨hid, hday⟩ := h.enter_stays he horder
    have hmem : ∀ {t}, t ∈ ((emp.ensure a.seat.departureDate).2.enter a.seat).duty.seats ↔
        t = a.seat ∨ l.roster.Lists id a.seat.departureDate t := by
      intro t
      rw [halike.seats, h.mem_entered ha _ hn he]
    refine h.putDuty ha he hid hday (halike.seats ▸ h.ordered_entered ha _ hn he) rfl ?_ ?_ ?_
    · intro j hj
      change _ ∧ none ≠ some j
      simp [hn, Ne.symm hj]
    · intro t ht
      rw [hmem, or_iff_right ht]
    · intro i day
      change (l.roster.putDuty id _ _).Lists i day a.seat ↔ none ≠ some k ∧ _
      rw [Roster.lists_putDuty he, hmem]
      split
      case isTrue hi => simp [ho, hi]
      case isFalse hne =>
        have : ¬l.roster.Lists i day a.seat := fun hl => ((h.listed ha i day).1 hl).1 hn
        simp only [this, false_iff]
        rintro ⟨-, hi, hday⟩
        exact hne ⟨Option.some.inj (hi.symm.trans ho), hday⟩

end Halves

-- The owner of the pending seat may be anybody: no duty lists the seat.
theorem setOwner (h : l.Listing) (hn : l.pending = some k) : (l.setOwner k owner).Listing where
  toWellFormed := h.toWellFormed.setOwner
  known hs := by
    obtain ⟨a, ha, rfl⟩ := h.known hs
    exact ⟨_, Roster.get?_setOwner_of_some ha, rfl⟩
  listed {j b} hj i day := by
    obtain ⟨a, ha, rfl⟩ := Roster.exists_of_get?_setOwner hj
    refine (h.listed ha i day).trans ?_
    change l.pending ≠ some j ∧ _ ↔ l.pending ≠ some j ∧ _
    by_cases hk : j = k
    · simp [hn, hk]
    · simp [hk]
  ordered := h.ordered

theorem kept : Kept fun l => l.Listing ∧ l.roster.Naive where
  seatId h ha := h.1.seatId ha
  release h ha := ⟨h.1.release ha, h.2.of_blank_eq blank_release.symm⟩
  settle h ha := ⟨h.1.settle ha h.2, h.2.of_blank_eq blank_settle.symm⟩
  setOwner owner h hn := ⟨h.1.setOwner hn, h.2.of_blank_eq (Roster.blank_setOwner owner).symm⟩

end Listing
end CrewRoster.Ledger
