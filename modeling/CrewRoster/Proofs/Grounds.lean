import CrewRoster.Proofs.Consistency

namespace CrewRoster

-- The fields of a duty follow from its seats and from what was planned on the ground.
theorem Duty.Current.eq_of_alike {d d' : Duty} (h : d.Current) (h' : d'.Current) (ha : d.Alike d') :
    d' = d := by
  obtain ⟨employee, date, hseats, hground⟩ := ha
  have hfields : d'.start = d.start ∧ d'.finish = d.finish ∧ d'.lastArrival = d.lastArrival ∧
      d'.code = d.code := by
    by_cases hs : d.seats = []
    · obtain ⟨hstart, hfinish, hlast, hcode⟩ := h.idle hs
      obtain ⟨hstart', hfinish', hlast', hcode'⟩ := h'.idle (hseats.trans hs)
      rw [hstart, hfinish, hlast, hcode, hstart', hfinish', hlast', hcode', hground]
      exact ⟨rfl, rfl, rfl, rfl⟩
    · have hf : d.first? = some (d.seats.head hs) := List.head?_eq_some_head hs
      have hl : d.last? = some (d.seats.getLast hs) := List.getLast?_eq_some_getLast hs
      have hf' : d'.first? = some (d.seats.head hs) := (congrArg List.head? hseats).trans hf
      have hl' : d'.last? = some (d.seats.getLast hs) := (congrArg List.getLast? hseats).trans hl
      obtain ⟨⟨t, ht, hstart⟩, ⟨u, hu, hfinish⟩, hlast, hcode⟩ := h.flown _ hf _ hl
      obtain ⟨⟨t', ht', hstart'⟩, ⟨u', hu', hfinish'⟩, hlast', hcode'⟩ := h'.flown _ hf' _ hl'
      obtain rfl := Except.ok.inj (ht.symm.trans ht')
      obtain rfl := Except.ok.inj (hu.symm.trans hu')
      exact ⟨hstart'.trans hstart.symm, hfinish'.trans hfinish.symm, hlast'.trans hlast.symm,
        hcode'.trans hcode.symm⟩
  obtain ⟨hstart, hfinish, hlast, hcode⟩ := hfields
  cases d
  cases d'
  simp_all

-- A duty that says something: it has a code or seats.
def Duty.isBusy (d : Duty) : Bool := d.hasCode || d.isFlightDuty

namespace Roster

variable {r : Roster} {d : Duty} {e : Employee} {id : String} {day : Date}

-- What was planned on the ground for an employee on a day.
def groundAt (r : Roster) (employee : String) (day : Date) : Option Ground :=
  (r.dutyAt employee day).bind (·.ground)

theorem groundAt_putDuty {k : String} {day' : Date} (he : r.employees.get? k = some e)
    (hg : d.ground = r.groundAt k day) : (r.putDuty k day d).groundAt id day' = r.groundAt id day' := by
  rw [groundAt, dutyAt_putDuty he]
  split
  case isTrue hid => rw [Option.bind_some, hg, hid.1, hid.2]
  case isFalse => rfl

theorem ground_ensure (he : r.employees.get? id = some e) :
    (e.ensure day).2.ground = r.groundAt id day := by
  rw [groundAt, dutyAt, he, Option.bind_some]
  cases hd : e.dutyOn day with
  | none => rw [Employee.ensure_of_none hd]; rfl
  | some d => rw [Employee.ensure_of_some hd]; rfl

end Roster

namespace Ledger

variable {l l' l₀ : Ledger} {r : Roster} {a : Assignment} {k id : String} {day : Date} {s : Seat}
  {d : Duty} {owner : Option String}

theorem groundAt_release : (l.release a).1.roster.groundAt id day = l.roster.groundAt id day := by
  have hrel := released l a
  generalize l.release a = o at hrel
  cases hrel
  case refused => rfl
  case unordered => rfl
  case unowned => rfl
  case owned i d _ _ hd hc _ =>
    obtain ⟨emp, he, -⟩ := Roster.dutyAt_eq_some.1 hd
    refine Roster.groundAt_putDuty he ?_
    rw [(Duty.alike_retract hc).ground, Roster.groundAt, hd, Option.bind_some]

theorem Listing.groundAt_settle (h : l.Listing) (ha : l.roster.assignments.get? k = some a)
    (hn : l.roster.Naive) : (l.settle a).1.roster.groundAt id day = l.roster.groundAt id day := by
  have hset := settled l a
  generalize l.settle a = o at hset
  cases hset
  case refused => rfl
  case unowned => rfl
  case owned i emp _ _ he =>
    refine Roster.groundAt_putDuty he ?_
    rw [(Duty.alike_enter (h.checkOrder_ensure a.seat.departureDate hn ha he)).ground]
    exact Roster.ground_ensure he

-- What changes of owners leave of a roster: the seats and the crew, and what was planned on the ground.
structure Remains (r : Roster) (l : Ledger) : Prop where
  consistent : l.Consistent
  plain : l.roster.Plain
  blank : l.roster.blank = r.blank
  ground : ∀ id day, l.roster.groundAt id day = r.groundAt id day

namespace Remains

theorem kept (r : Roster) : Kept (Remains r) where
  seatId h ha := h.consistent.seatId ha
  release h ha := ⟨h.consistent.release h.plain ha, h.plain.of_blank_eq blank_release.symm,
    blank_release.trans h.blank,
    fun id day => groundAt_release.trans (h.ground id day)⟩
  settle h ha := ⟨h.consistent.settle h.plain ha, h.plain.of_blank_eq blank_settle.symm,
    blank_settle.trans h.blank,
    fun id day => (h.consistent.listing.groundAt_settle ha h.plain.naive).trans (h.ground id day)⟩
  setOwner owner h hn := ⟨h.consistent.setOwner hn,
    h.plain.of_blank_eq (Roster.blank_setOwner owner).symm, (Roster.blank_setOwner owner).trans h.blank,
    h.ground⟩

theorem hasCode_eq_false (h : Remains r l) (hd : l.roster.dutyAt id day = some d)
    (hs : ∀ s, ¬l.roster.Lists id day s) (hg : r.groundAt id day = none) : d.hasCode = false := by
  have hseats : d.seats = [] := List.eq_nil_iff_forall_not_mem.2 fun s hm => hs s ⟨d, hd, hm⟩
  have hground : d.ground = none := by
    rwa [← h.ground, Roster.groundAt, hd, Option.bind_some] at hg
  obtain ⟨-, -, -, hcode⟩ := (h.consistent.current hd).idle hseats
  simp [Duty.hasCode, hcode, hground]

variable (h : Remains r l) (h' : Remains r l') (hn : l.pending = none) (hn' : l'.pending = none)
  (ha : ∀ k, l'.roster.assignments.get? k = l.roster.assignments.get? k)
include h h' hn hn' ha

theorem lists_iff : l'.roster.Lists id day s ↔ l.roster.Lists id day s := by
  simp only [h.consistent.listing.lists_iff hn, h'.consistent.listing.lists_iff hn', Roster.Owns, ha]

-- What is left of a duty is its ground and its seats, and these go with the owners.
theorem eq_of_dutyAt {d' : Duty} (hd : l.roster.dutyAt id day = some d)
    (hd' : l'.roster.dutyAt id day = some d') : d' = d := by
  refine (h.consistent.current hd).eq_of_alike (h'.consistent.current hd') ?_
  constructor
  case employee => exact (h'.consistent.crewOf hd').trans (h.consistent.crewOf hd).symm
  case date => exact (h'.consistent.dated hd').trans (h.consistent.dated hd).symm
  case seats =>
    refine (h'.consistent.ordered hd').eq_of_mem_iff (h.consistent.ordered hd) fun s => ?_
    have hlists : l'.roster.Lists id day s ↔ l.roster.Lists id day s := h.lists_iff h' hn hn' ha
    simpa [Roster.Lists, hd, hd'] using hlists
  case ground =>
    have hground : l'.roster.groundAt id day = l.roster.groundAt id day := by rw [h'.ground, h.ground]
    simpa [Roster.groundAt, hd, hd'] using hground

-- A duty that says something is the same wherever the owners are the same: its seats are, and where it has
-- none, the ground is.
theorem dutyAt_of_isBusy (hd : l.roster.dutyAt id day = some d) (hb : d.isBusy) :
    l'.roster.dutyAt id day = some d := by
  obtain ⟨d', hd'⟩ : ∃ d', l'.roster.dutyAt id day = some d' := by
    cases hs : d.seats with
    | cons s seats =>
      obtain ⟨d', hd', -⟩ := (h.lists_iff h' hn hn' ha).2 ⟨d, hd, hs ▸ List.mem_cons_self⟩
      exact ⟨d', hd'⟩
    | nil =>
      obtain ⟨-, -, -, hcode⟩ := (h.consistent.current hd).idle hs
      have hcoded : d.code.isSome := by simpa [Duty.isBusy, Duty.isFlightDuty, Duty.hasCode, hs] using hb
      obtain ⟨g, hg⟩ : ∃ g, d.ground = some g := by
        cases hg : d.ground with
        | none => simp [hcode, hg] at hcoded
        | some g => exact ⟨g, rfl⟩
      have hground : l'.roster.groundAt id day = some g := by
        rw [h'.ground, ← h.ground, Roster.groundAt, hd, Option.bind_some, hg]
      obtain ⟨d', hd', -⟩ := Option.bind_eq_some_iff.1 hground
      exact ⟨d', hd'⟩
  rw [hd', h.eq_of_dutyAt h' hn hn' ha hd hd']

end Remains

-- Ledgers that come of one roster have the same duties once they have the same owners, whatever was done to
-- them. Duties that say nothing do not count.
theorem Remains.dutyAt_eq (h : Remains r l) (h' : Remains r l') (hn : l.pending = none)
    (hn' : l'.pending = none)
    (ha : ∀ k, l'.roster.assignments.get? k = l.roster.assignments.get? k) (id : String) (day : Date) :
    (l'.roster.dutyAt id day).filter (·.isBusy) = (l.roster.dutyAt id day).filter (·.isBusy) := by
  ext d
  simp only [Option.filter_eq_some_iff]
  constructor
  · rintro ⟨hd, hb⟩
    exact ⟨h'.dutyAt_of_isBusy h hn' hn (fun k => (ha k).symm) hd hb, hb⟩
  · rintro ⟨hd, hb⟩
    exact ⟨h.dutyAt_of_isBusy h' hn hn' ha hd hb, hb⟩

end Ledger
end CrewRoster
