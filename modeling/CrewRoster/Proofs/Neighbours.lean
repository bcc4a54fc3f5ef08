import CrewRoster.Proofs.TimeOrder

namespace CrewRoster

namespace Lists

variable {α β : Type} {p : α → Bool} {l : List α}

theorem flatMap_filter_of_forall {f : α → List β} (h : ∀ a ∈ l, ¬p a → f a = []) :
    (l.filter p).flatMap f = l.flatMap f := by
  induction l with
  | nil => rfl
  | cons a l ih =>
    obtain ⟨ha, hl⟩ := List.forall_mem_cons.1 h
    by_cases hpa : p a
    · simp [hpa, ih hl]
    · simp [hpa, ih hl, ha hpa]

end Lists

namespace Seat

variable {seats : List Seat} {s t : Seat} {k : Key} {P Q : Seat → Prop}

-- The last in time of the seats with a property, if any seat has it.
def IsLatest (P : Seat → Prop) : Option Seat → Prop
  | none => ∀ t, ¬P t
  | some s => P s ∧ ∀ t, P t → t.key.le s.key

-- The first in time of the seats with a property, if any seat has it.
def IsEarliest (P : Seat → Prop) : Option Seat → Prop
  | none => ∀ t, ¬P t
  | some s => P s ∧ ∀ t, P t → s.key.le t.key

namespace Ordered

variable (h : Ordered seats)
include h

theorem filter (p : Seat → Bool) : Ordered (seats.filter p) :=
  List.Pairwise.filter p h

theorem getLast?_eq_some_iff : seats.getLast? = some s ↔ s ∈ seats ∧ ∀ t ∈ seats, t.key.le s.key := by
  constructor
  · intro hl
    obtain ⟨before, rfl⟩ := List.getLast?_eq_some_iff.1 hl
    refine ⟨by simp, fun t ht => ?_⟩
    rcases List.mem_append.1 ht with ht | ht
    · exact Key.le_iff.2 (Key.lt_iff.1 (h.lt_of_split.1 t ht)).le
    · rw [List.mem_singleton.1 ht, Key.le_iff]
  · rintro ⟨hs, hle⟩
    obtain ⟨before, after, rfl⟩ := List.append_of_mem hs
    cases after with
    | nil => simp
    | cons b after =>
      have hlt := h.lt_of_split.2 b List.mem_cons_self
      have := Key.le_iff.1 (hle b (by simp))
      exact absurd (Key.lt_iff.1 hlt) this.not_gt

theorem head?_eq_some_iff : seats.head? = some s ↔ s ∈ seats ∧ ∀ t ∈ seats, s.key.le t.key := by
  constructor
  · intro hf
    obtain ⟨after, rfl⟩ := List.head?_eq_some_iff.1 hf
    refine ⟨List.mem_cons_self, fun t ht => ?_⟩
    rcases List.mem_cons.1 ht with rfl | ht
    · exact Key.le_iff.2 le_rfl
    · exact Key.le_iff.2 (Key.lt_iff.1 ((List.pairwise_cons.1 h).1 t ht)).le
  · rintro ⟨hs, hle⟩
    obtain ⟨before, after, rfl⟩ := List.append_of_mem hs
    cases before with
    | nil => rfl
    | cons b before =>
      have hlt := h.lt_of_split.1 b List.mem_cons_self
      have := Key.le_iff.1 (hle b (by simp))
      exact absurd (Key.lt_iff.1 hlt) this.not_gt

theorem isLatest_getLast? (hP : ∀ t, t ∈ seats ↔ P t) : IsLatest P seats.getLast? := by
  cases hl : seats.getLast? with
  | none =>
    obtain rfl := List.getLast?_eq_none_iff.1 hl
    exact fun t ht => List.not_mem_nil ((hP t).2 ht)
  | some s =>
    obtain ⟨hs, hle⟩ := h.getLast?_eq_some_iff.1 hl
    exact ⟨(hP s).1 hs, fun t ht => hle t ((hP t).2 ht)⟩

theorem isEarliest_head? (hP : ∀ t, t ∈ seats ↔ P t) : IsEarliest P seats.head? := by
  cases hf : seats.head? with
  | none =>
    obtain rfl := List.head?_eq_none_iff.1 hf
    exact fun t ht => List.not_mem_nil ((hP t).2 ht)
  | some s =>
    obtain ⟨hs, hle⟩ := h.head?_eq_some_iff.1 hf
    exact ⟨(hP s).1 hs, fun t ht => hle t ((hP t).2 ht)⟩

-- A seat is the first after another one if that one is the last before it: nothing is between them.
theorem head?_filter_iff_getLast?_filter (hs : s ∈ seats) (ht : t ∈ seats) :
    (seats.filter (s.key.lt ·.key)).head? = some t ↔ (seats.filter (·.key.lt t.key)).getLast? = some s := by
  rw [(h.filter _).head?_eq_some_iff, (h.filter _).getLast?_eq_some_iff]
  simp only [List.mem_filter, hs, ht, true_and, and_imp, Key.le, Bool.not_eq_true',
    Bool.eq_false_iff]
  exact and_congr_right fun _ => forall₂_congr fun _ _ => ⟨fun h ha hb => h hb ha, fun h ha hb => h hb ha⟩

end Ordered
end Seat

namespace Calendar

variable {s : Seat} {ds : List Duty}

section Search

variable (horder : ∀ d ∈ ds, ∀ r, d.checkOrder s r = .ok ()) (hordered : ∀ d ∈ ds, Seat.Ordered d.seats)
include horder hordered

theorem seatBefore_eq :
    seatBefore s ds = .ok (ds.findSome? fun d => (d.seats.filter (·.key.lt s.key)).getLast?) := by
  induction ds with
  | nil => rfl
  | cons d ds ih =>
    obtain ⟨hd, hds⟩ := List.forall_mem_cons.1 horder
    obtain ⟨hod, hods⟩ := List.forall_mem_cons.1 hordered
    have hprefix := List.takeWhile_prefix (l := d.seats) (·.key.lt s.key)
    rw [seatBefore, hd, Result.ok_bind, Duty.countBefore_eq hod, List.findSome?_cons, ← hod.takeWhile_lt,
      List.getLast?_eq_getElem?]
    cases hn : (d.seats.takeWhile (·.key.lt s.key)).length with
    | zero => simpa [List.length_eq_zero_iff.1 hn] using ih hds hods
    | succ n =>
      have hlt : n < (d.seats.takeWhile (·.key.lt s.key)).length := by omega
      rw [Nat.add_sub_cancel, List.getElem?_eq_getElem hlt]
      exact congrArg Except.ok (List.prefix_iff_getElem?.1 hprefix n hlt)

theorem seatAfter_eq :
    seatAfter s ds = .ok (ds.findSome? fun d => (d.seats.filter (s.key.lt ·.key)).head?) := by
  induction ds with
  | nil => rfl
  | cons d ds ih =>
    obtain ⟨hd, hds⟩ := List.forall_mem_cons.1 horder
    obtain ⟨hod, hods⟩ := List.forall_mem_cons.1 hordered
    rw [seatAfter, hd, Result.ok_bind, Duty.countUpTo_eq hod, Lists.getElem?_length_takeWhile,
      hod.dropWhile_le, List.findSome?_cons]
    cases (d.seats.filter (s.key.lt ·.key)).head? with
    | none => exact ih hds hods
    | some t => rfl

end Search

end Calendar

namespace Ledger

variable {l : Ledger} {r : Roster} {e : Employee} {id : String} {s t : Seat} {d : Duty} {day : Date}
  {folder : Folder} {scenario : Scenario} {solved : Bool}

namespace Listing

variable (h : l.Listing)
include h

theorem departureDate_of_lists (hs : l.roster.Lists id day s) : s.departureDate = day := by
  obtain ⟨a, ha, rfl⟩ := h.known hs
  exact (h.eq_of_lists ha hs).2.symm

section Calendar

variable (hnaive : l.roster.Naive) (he : l.roster.employees.get? id = some e)
  (hs : s.flight.OnLine false)
include hnaive he hs

-- A seat that is not too early for the day of `s` is no earlier than `s` on a later day, and so on.
theorem previousSeat_eq :
    e.calendar.previousSeat s = .ok (e.seats.filter (·.key.lt s.key)).getLast? := by
  have hline : ∀ d ∈ e.calendar.duties, ∀ t ∈ d.seats, t.flight.OnLine false := fun d hd t ht =>
    h.onLine_of_lists hnaive ⟨d, h.dutyAt_of_mem he hd, ht⟩
  have hlater : ∀ d ∈ e.calendar.duties, ¬d.date ≤ s.departureDate →
      d.seats.filter (·.key.lt s.key) = [] := by
    refine fun d hd hlt => List.filter_eq_nil_iff.2 fun t ht => Seat.Key.asymm ?_
    have hday := h.departureDate_of_lists ⟨d, h.dutyAt_of_mem he hd, ht⟩
    exact Seat.key_lt_of_date_lt hs (hline d hd t ht) (hday ▸ Int.not_le.1 hlt)
  rw [Calendar.previousSeat, (h.calendar_dated he).map_filter (· ≤ s.departureDate),
    Calendar.seatBefore_eq, ← List.getLast?_flatMap,
    Lists.flatMap_filter_of_forall (by simpa using hlater), ← List.filter_flatMap]
  · rfl
  · intro d hd _
    exact Duty.checkOrder_of_onLine (hline d (List.mem_filter.1 (List.mem_reverse.1 hd)).1) hs
  · intro d hd
    exact h.ordered (h.dutyAt_of_mem he (List.mem_filter.1 (List.mem_reverse.1 hd)).1)

theorem nextSeat_eq : e.calendar.nextSeat s = .ok (e.seats.filter (s.key.lt ·.key)).head? := by
  have hline : ∀ d ∈ e.calendar.duties, ∀ t ∈ d.seats, t.flight.OnLine false := fun d hd t ht =>
    h.onLine_of_lists hnaive ⟨d, h.dutyAt_of_mem he hd, ht⟩
  have hearlier : ∀ d ∈ e.calendar.duties, ¬s.departureDate ≤ d.date →
      d.seats.filter (s.key.lt ·.key) = [] := by
    refine fun d hd hlt => List.filter_eq_nil_iff.2 fun t ht => Seat.Key.asymm ?_
    have hday := h.departureDate_of_lists ⟨d, h.dutyAt_of_mem he hd, ht⟩
    exact Seat.key_lt_of_date_lt (hline d hd t ht) hs (hday ▸ Int.not_le.1 hlt)
  rw [Calendar.nextSeat, (h.calendar_dated he).map_filter (s.departureDate ≤ ·),
    Calendar.seatAfter_eq, ← List.head?_flatMap,
    Lists.flatMap_filter_of_forall (by simpa using hearlier), ← List.filter_flatMap]
  · rfl
  · intro d hd _
    exact Duty.checkOrder_of_onLine (hline d (List.mem_filter.1 hd).1) hs
  · intro d hd
    exact h.ordered (h.dutyAt_of_mem he (List.mem_filter.1 hd).1)

end Calendar

end Listing

namespace Steps

-- Whatever was done to a roster that was loaded, once nothing is pending, an employee's calendar finds
-- 1. as the seat before a seat of the roster the last that is the employee's own and earlier
-- 2. as the seat after it the first that is the employee's own and later
-- 3. of two seats of the employee, each as the neighbour of the other or neither
theorem neighbours_of_load (hload : loadInstance folder solved = .ok (scenario, r)) (hnaive : r.Naive)
    (hs : Steps (.ofRoster r) l) (hn : l.pending = none) (he : l.roster.employees.get? id = some e) :
    (∀ s ∈ l.roster.seats,
      (∃ p, e.calendar.previousSeat s = .ok p ∧
        Seat.IsLatest (fun t => l.roster.Owns id t ∧ t.key.lt s.key) p) ∧
      ∃ n, e.calendar.nextSeat s = .ok n ∧
        Seat.IsEarliest (fun t => l.roster.Owns id t ∧ s.key.lt t.key) n) ∧
    ∀ s t, l.roster.Owns id s → l.roster.Owns id t →
      (e.calendar.nextSeat s = .ok (some t) ↔ e.calendar.previousSeat t = .ok (some s)) := by
  obtain ⟨h, hnaive⟩ := hs.listing ⟨listing_of_loadInstance hload hnaive, hnaive⟩
  have hline : ∀ s ∈ l.roster.seats, s.flight.OnLine false := fun s hs => by
    obtain ⟨k, a, ha, rfl⟩ := Roster.mem_seats.1 hs
    exact hnaive k a ha
  have ho := h.seats_ordered hnaive he
  constructor
  · intro s hs
    refine ⟨⟨_, h.previousSeat_eq hnaive he (hline s hs), (ho.filter _).isLatest_getLast? fun t => ?_⟩,
      _, h.nextSeat_eq hnaive he (hline s hs), (ho.filter _).isEarliest_head? fun t => ?_⟩
    · rw [List.mem_filter, h.mem_seats hn he]
    · rw [List.mem_filter, h.mem_seats hn he]
  · intro s t hs ht
    rw [h.nextSeat_eq hnaive he (hline s hs.mem_seats), h.previousSeat_eq hnaive he (hline t ht.mem_seats),
      Except.ok.injEq, Except.ok.injEq]
    exact ho.head?_filter_iff_getLast?_filter ((h.mem_seats hn he).2 hs) ((h.mem_seats hn he).2 ht)

end Steps

-- Between the two legs of an employee there is one that is open.
theorem Steps.neighbours_of_load_journey : ∃ scenario r l e,
    loadInstance .journey false = .ok (scenario, r) ∧ r.Naive ∧ Steps (.ofRoster r) l ∧
    l.pending = none ∧ l.roster.employees.get? "E" = some e ∧
    l.roster.Open Contents.tuesday.seat ∧
    e.calendar.previousSeat Contents.tuesday.seat = .ok (some Contents.monday.seat) ∧
    e.calendar.nextSeat Contents.tuesday.seat = .ok (some Contents.thursday.seat) ∧
    e.calendar.previousSeat Contents.thursday.seat = .ok (some Contents.monday.seat) ∧
    e.calendar.nextSeat Contents.monday.seat = .ok (some Contents.thursday.seat) := by
  obtain ⟨scenario, r, l, e, hload, hp, -, hre, -, hn, he, hget, howns, -⟩ := travels_journey
  have hs : Steps (.ofRoster r) l := hre.steps
  have hopen : l.roster.Open Contents.tuesday.seat := ⟨_, hget⟩
  have hmonday := (howns _).2 (.inl rfl)
  have hthursday := (howns _).2 (.inr rfl)
  obtain ⟨hall, hboth⟩ := neighbours_of_load hload hp.naive hs hn he
  have hprevious : ∀ s ∈ l.roster.seats, Contents.monday.seat.key.lt s.key = true →
      Contents.thursday.seat.key.lt s.key = false →
      e.calendar.previousSeat s = .ok (some Contents.monday.seat) := by
    intro s hs hlt hge
    obtain ⟨⟨p, hprevious, hlatest⟩, -⟩ := hall s hs
    cases p with
    | none => exact absurd ⟨hmonday, hlt⟩ (hlatest _)
    | some t =>
      obtain ⟨⟨hown, htlt⟩, -⟩ := hlatest
      rcases (howns t).1 hown with rfl | rfl
      · exact hprevious
      · exact absurd htlt (by simp [hge])
  have hnext : e.calendar.nextSeat Contents.tuesday.seat = .ok (some Contents.thursday.seat) := by
    obtain ⟨-, n, hnext, hearliest⟩ := hall _ hopen.mem_seats
    cases n with
    | none => exact absurd ⟨hthursday, by decide +kernel⟩ (hearliest _)
    | some t =>
      obtain ⟨⟨hown, hlt⟩, -⟩ := hearliest
      rcases (howns t).1 hown with rfl | rfl
      · exact absurd hlt (by decide +kernel)
      · exact hnext
  have hlast := hprevious _ hthursday.mem_seats (by decide +kernel) (by decide +kernel)
  exact ⟨scenario, r, l, e, hload, hp.naive, hs, hn, he, hopen,
    hprevious _ hopen.mem_seats (by decide +kernel) (by decide +kernel), hnext, hlast,
    (hboth _ _ hmonday hthursday).2 hlast⟩

end Ledger
end CrewRoster
