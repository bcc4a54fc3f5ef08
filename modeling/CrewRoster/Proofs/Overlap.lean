import CrewRoster.Overlap
import CrewRoster.Proofs.Result
import CrewRoster.Proofs.SeatOrder
import Mathlib.Data.List.Sort

namespace CrewRoster

namespace Instant

variable {a b : Instant}

theorem position_of_plain {a : Instant} (h : a.zone = none) : a.position = a.wall := by
  simp [position, h]

section Comparable

variable (h : a.comparable b = true)
include h

theorem lt?_of_comparable : a.lt? b = .ok (decide (a.position < b.position)) := by
  simp [lt?, h]

theorem le?_of_comparable : a.le? b = .ok (decide (a.position ≤ b.position)) := by
  simp [le?, h]

theorem minus_of_comparable : a.minus b = .ok (a.position - b.position) := by
  simp [minus, h]

end Comparable

-- The earlier and the later of two points, as far as their places on the line go.
theorem min?_of_comparable (h : b.comparable a = true) :
    ∃ t, a.min? b = .ok t ∧ (t = a ∨ t = b) ∧ t.position = min a.position b.position := by
  simp only [min?, lt?_of_comparable h, bind, Except.bind, pure, Except.pure]
  by_cases hlt : b.position < a.position
  · exact ⟨b, by simp [hlt], .inr rfl, (min_eq_right (le_of_lt hlt)).symm⟩
  · exact ⟨a, by simp [hlt], .inl rfl, (min_eq_left (not_lt.1 hlt)).symm⟩

theorem max?_of_comparable (h : a.comparable b = true) :
    ∃ t, a.max? b = .ok t ∧ (t = a ∨ t = b) ∧ t.position = max a.position b.position := by
  simp only [max?, lt?_of_comparable h, bind, Except.bind, pure, Except.pure]
  by_cases hlt : a.position < b.position
  · exact ⟨b, by simp [hlt], .inr rfl, (max_eq_right (le_of_lt hlt)).symm⟩
  · exact ⟨a, by simp [hlt], .inl rfl, (max_eq_left (not_lt.1 hlt)).symm⟩

end Instant

namespace Interval

variable {a b : Interval} {zoned : Bool}

-- The ends of an interval lie on one of the two lines, with zones or without.
structure OnLine (zoned : Bool) (a : Interval) : Prop where
  start : a.start.zone.isSome = zoned
  finish : a.finish.zone.isSome = zoned

theorem onLine_of_naive (hs : a.start.zone = none) (hf : a.finish.zone = none) : a.OnLine false :=
  ⟨by simp [hs], by simp [hf]⟩

-- Two intervals on one line share the time from the later start to the earlier finish.
theorem overlapMinutes_eq (ha : a.OnLine zoned) (hb : b.OnLine zoned) :
    a.overlapMinutes b =
      .ok (if a.start.position < b.finish.position ∧ b.start.position < a.finish.position then
        Span.minutes (min a.finish.position b.finish.position - max a.start.position b.start.position)
      else 0) := by
  have hline : ∀ {t u : Instant}, t.zone.isSome = zoned → u.zone.isSome = zoned →
      t.comparable u = true := fun ht hu => by simp [Instant.comparable, ht, hu]
  obtain ⟨t, ht, hta, hpt⟩ := Instant.min?_of_comparable (hline hb.finish ha.finish)
  obtain ⟨u, hu, hub, hpu⟩ := Instant.max?_of_comparable (hline ha.start hb.start)
  have htu : t.comparable u = true := by
    refine hline ?_ ?_
    · rcases hta with rfl | rfl
      · exact ha.finish
      · exact hb.finish
    · rcases hub with rfl | rfl
      · exact ha.start
      · exact hb.start
  simp only [overlapMinutes, ht, hu, Instant.lt?_of_comparable (hline ha.start hb.finish),
    Instant.lt?_of_comparable (hline hb.start ha.finish), Instant.minus_of_comparable htu, hpt, hpu, bind,
    Except.bind, pure, Except.pure]
  by_cases h₁ : a.start.position < b.finish.position <;>
    by_cases h₂ : b.start.position < a.finish.position <;> simp [h₁, h₂]

end Interval

-- The times of a flight lie on one of the two lines, with zones or without.
structure Flight.OnLine (zoned : Bool) (f : Flight) : Prop where
  departure : f.departure.zone.isSome = zoned
  arrival : f.arrival.zone.isSome = zoned

namespace Flight

variable {f g : Flight} {zoned : Bool}

-- The whole minutes in the air that two flights share.
def sharedMinutes (f g : Flight) : Int :=
  if f.departure.position < g.arrival.position ∧ g.departure.position < f.arrival.position then
    Span.minutes (min f.arrival.position g.arrival.position -
      max f.departure.position g.departure.position)
  else 0

theorem sharedMinutes_comm (f g : Flight) : f.sharedMinutes g = g.sharedMinutes f := by
  unfold sharedMinutes
  rw [min_comm, max_comm]
  exact if_congr and_comm rfl rfl

theorem sharedMinutes_of_le (h : f.arrival.position ≤ g.departure.position) :
    f.sharedMinutes g = 0 :=
  if_neg fun hlt => not_lt.2 h hlt.2

theorem OnLine.airborne (h : f.OnLine zoned) : f.airborne.OnLine zoned := ⟨h.departure, h.arrival⟩

theorem overlapMinutes_eq (hf : f.OnLine zoned) (hg : g.OnLine zoned) :
    f.overlapMinutes g = .ok (f.sharedMinutes g) :=
  Interval.overlapMinutes_eq hf.airborne hg.airborne

end Flight

namespace Seat

variable {s t : Seat} {zoned : Bool} {seats : List Seat}

-- Nobody holds both seats.
def clashes (s t : Seat) : Bool :=
  s.flight.id = t.flight.id || 0 < s.flight.sharedMinutes t.flight

theorem clashes_comm (s t : Seat) : s.clashes t = t.clashes s := by
  rw [clashes, clashes, Flight.sharedMinutes_comm, decide_eq_decide.2 eq_comm]

theorem conflicts_eq (hs : s.flight.OnLine zoned) (ht : t.flight.OnLine zoned) :
    s.conflicts t = .ok (s.clashes t) := by
  unfold conflicts clashes
  split
  case isTrue h => simp [h, pure, Except.pure]
  case isFalse h =>
    simp [h, Flight.overlapMinutes_eq hs ht, bind, Except.bind, pure, Except.pure]

-- The seats of a timetable, all on one line:
-- 1. flights depart before they arrive
-- 2. flights are told apart by their ids
structure Timetable (zoned : Bool) (seats : List Seat) : Prop where
  line : ∀ s ∈ seats, s.flight.OnLine zoned
  airborne : ∀ s ∈ seats, s.flight.departure.position < s.flight.arrival.position
  flight : ∀ s ∈ seats, ∀ t ∈ seats, s.flight.id = t.flight.id → s.flight = t.flight

namespace Timetable

theorem sub {seats' : List Seat} (h : Timetable zoned seats) (hs : ∀ s ∈ seats', s ∈ seats) :
    Timetable zoned seats' where
  line s hm := h.line s (hs s hm)
  airborne s hm := h.airborne s (hs s hm)
  flight s hm t ht := h.flight s (hs s hm) t (hs t ht)

-- Once a flight has landed, what departs does not clash with it.
theorem not_clashes (h : Timetable zoned seats) (hs : s ∈ seats) (ht : t ∈ seats)
    (hle : s.flight.arrival.position ≤ t.flight.departure.position) : s.clashes t = false := by
  have hid : s.flight.id ≠ t.flight.id := by
    intro he
    have hf := h.flight s hs t ht he
    have := h.airborne s hs
    rw [hf] at this hle
    omega
  simp [clashes, hid, Flight.sharedMinutes_of_le hle]

end Timetable

-- The pairs of seats that clash, each seat with those behind it.
def clashing : List Seat → List (Seat × Seat)
  | [] => []
  | s :: later => (later.filter s.clashes).map (s, ·) ++ clashing later

theorem conflictsAfter_eq {later : List Seat} (h : Timetable zoned (s :: later))
    (ho : (s :: later).Pairwise fun a b => a.flight.departure.position ≤ b.flight.departure.position) :
    s.conflictsAfter later = .ok (later.filter s.clashes) := by
  induction later with
  | nil => rfl
  | cons t later ih =>
    have hs := h.line s List.mem_cons_self
    have ht := h.line t (by simp)
    have hrest := ih (h.sub (by simp +contextual)) (ho.sublist (by simp))
    have hcomp : s.flight.arrival.comparable t.flight.departure = true := by
      simp [Instant.comparable, hs.arrival, ht.departure]
    simp only [conflictsAfter, Instant.le?_of_comparable hcomp, conflicts_eq hs ht, hrest, bind,
      Except.bind, pure, Except.pure]
    by_cases hle : s.flight.arrival.position ≤ t.flight.departure.position
    · -- nothing behind `t` departs before `t` does
      have hnone : (t :: later).filter s.clashes = [] := by
        rw [List.filter_eq_nil_iff]
        intro u hu
        have htu : t.flight.departure.position ≤ u.flight.departure.position := by
          rcases List.mem_cons.1 hu with rfl | hu
          · exact le_refl _
          · exact (List.pairwise_cons.1 (List.pairwise_cons.1 ho).2).1 u hu
        rw [h.not_clashes List.mem_cons_self (List.mem_cons_of_mem _ hu) (hle.trans htu)]
        exact Bool.false_ne_true
      simp [hle, hnone]
    · cases hclash : s.clashes t <;> simp [hle, hclash]

theorem sweep_eq (h : Timetable zoned seats)
    (ho : seats.Pairwise fun a b => a.flight.departure.position ≤ b.flight.departure.position) :
    sweep seats = .ok (clashing seats) := by
  induction seats with
  | nil => rfl
  | cons s later ih =>
    have hlater := ih (h.sub fun _ hm => List.mem_cons_of_mem _ hm) (List.pairwise_cons.1 ho).2
    simp [sweep, conflictsAfter_eq h ho, hlater, clashing, bind, Except.bind, pure, Except.pure]

theorem mem_clashing (ho : Ordered seats) {p : Seat × Seat} :
    p ∈ clashing seats ↔ p.1 ∈ seats ∧ p.2 ∈ seats ∧ p.1.key.lt p.2.key ∧ p.1.clashes p.2 := by
  induction seats with
  | nil => simp [clashing]
  | cons s later ih =>
    obtain ⟨hs, ho⟩ := List.pairwise_cons.1 ho
    obtain ⟨a, b⟩ := p
    rw [clashing, List.mem_append, ih ho]
    simp only [List.mem_map, List.mem_filter, Prod.mk.injEq, List.mem_cons]
    constructor
    · rintro (⟨t, ⟨ht, hc⟩, rfl, rfl⟩ | ⟨ha, hb, hlt, hc⟩)
      · exact ⟨.inl rfl, .inr ht, hs t ht, hc⟩
      · exact ⟨.inr ha, .inr hb, hlt, hc⟩
    · rintro ⟨rfl | ha, rfl | hb, hlt, hc⟩
      · exact absurd hlt (Key.irrefl _)
      · exact .inl ⟨b, ⟨hb, hc⟩, rfl, rfl⟩
      · exact absurd hlt (Key.asymm (hs a ha))
      · exact .inr ⟨ha, hb, hlt, hc⟩

end Seat

namespace Roster

variable {as : List Assignment} {zoned : Bool}

theorem checkOrder_eq {seats : List Seat} (h : ∀ s ∈ seats, s.flight.OnLine zoned) :
    checkOrder seats = .ok () := by
  induction seats with
  | nil => rfl
  | cons s seats ih =>
    have hs := h s List.mem_cons_self
    have hall : seats.all s.comparable = true := List.all_eq_true.2 fun t ht => by
      simp [Seat.comparable, Instant.comparable, hs.departure, (h t (List.mem_cons_of_mem _ ht)).departure]
    simp [checkOrder, hall]

-- Assignments on one line are put in the order of their seats; seats with different keys then stand in
-- strict order.
theorem sortAssignments_eq (h : ∀ a ∈ as, a.seat.flight.OnLine zoned)
    (hk : as.Pairwise fun a b => a.seat.key ≠ b.seat.key) :
    ∃ sorted, sortAssignments as = .ok sorted ∧ sorted.Perm as ∧
      Seat.Ordered (sorted.map (·.seat)) := by
  have hcheck : checkOrder (as.map (·.seat)) = .ok () := checkOrder_eq (by simpa using h)
  refine ⟨as.mergeSort fun a b => a.seat.key.le b.seat.key, ?_, List.mergeSort_perm _ _, ?_⟩
  · simp [sortAssignments, hcheck, bind, Except.bind, pure, Except.pure]
  · have hle := @List.pairwise_mergeSort _ (fun a b : Assignment => a.seat.key.le b.seat.key)
      (fun a b c hab hbc => by
        rw [Seat.Key.le_iff] at *
        exact hab.trans hbc)
      (fun a b => by
        simp only [Bool.or_eq_true, Seat.Key.le_iff]
        exact le_total _ _) as
    have hne := ((List.mergeSort_perm as fun a b => a.seat.key.le b.seat.key).pairwise_iff
      fun h => Ne.symm h).2 hk
    refine List.pairwise_map.2 ((hle.and hne).imp ?_)
    rintro a b ⟨hle, hne⟩
    rw [Seat.Key.lt_iff]
    exact lt_of_le_of_ne (Seat.Key.le_iff.1 hle) fun he => hne (Seat.Key.rank_injective he)

theorem conflictPairs_eq (h : Seat.Timetable zoned (as.map (·.seat)))
    (hk : as.Pairwise fun a b => a.seat.key ≠ b.seat.key) :
    ∃ sorted, Seat.Ordered sorted ∧ sorted.Perm (as.map (·.seat)) ∧
      conflictPairs as = .ok ((Seat.clashing sorted).map fun p => (p.1.id, p.2.id)) := by
  obtain ⟨sorted, hsorted, hperm, ho⟩ :=
    sortAssignments_eq (fun a ha => h.line _ (List.mem_map_of_mem ha)) hk
  have hseats := hperm.map (·.seat)
  refine ⟨sorted.map (·.seat), ho, hseats, ?_⟩
  have hsweep := Seat.sweep_eq (h.sub fun s hs => hseats.mem_iff.1 hs)
    (List.Pairwise.imp Seat.Key.departure_le_of_lt ho)
  simp [conflictPairs, hsorted, hsweep, bind, Except.bind, pure, Except.pure]

end Roster
end CrewRoster
