import CrewRoster.Proofs.Contents
import CrewRoster.Proofs.Overlap

namespace CrewRoster

namespace Seat

variable {s t : Seat} {seats : List Seat} {zoned : Bool}

instance (f : Flight) : Decidable (f.OnLine zoned) :=
  decidable_of_iff (f.departure.zone.isSome = zoned ∧ f.arrival.zone.isSome = zoned)
    ⟨fun ⟨hd, ha⟩ => ⟨hd, ha⟩, fun h => ⟨h.departure, h.arrival⟩⟩

instance : Decidable (Timetable zoned seats) :=
  decidable_of_iff
    ((∀ s ∈ seats, s.flight.OnLine zoned) ∧
      (∀ s ∈ seats, s.flight.departure.position < s.flight.arrival.position) ∧
      ∀ s ∈ seats, ∀ t ∈ seats, s.flight.id = t.flight.id → s.flight = t.flight)
    ⟨fun ⟨hl, ha, hf⟩ => ⟨hl, ha, hf⟩, fun h => ⟨h.line, h.airborne, h.flight⟩⟩

-- Pairs in the order of their first seats, and those with the same first seat in the order of their second.
def Earlier (p q : Seat × Seat) : Prop :=
  p.1.key.lt q.1.key ∨ p.1.key = q.1.key ∧ p.2.key.lt q.2.key

theorem Earlier.irrefl (p : Seat × Seat) : ¬Earlier p p := by
  rintro (h | ⟨-, h⟩)
  · exact Key.irrefl _ h
  · exact Key.irrefl _ h

theorem clashing_ordered (h : Ordered seats) : (clashing seats).Pairwise Earlier := by
  induction seats with
  | nil => exact .nil
  | cons s later ih =>
    obtain ⟨hs, hlater⟩ := List.pairwise_cons.1 h
    rw [clashing, List.pairwise_append]
    refine ⟨?_, ih hlater, ?_⟩
    · -- the pairs of one seat are in the order of the seats behind it
      refine List.pairwise_map.2 ((List.Pairwise.sublist List.filter_sublist hlater).imp ?_)
      exact fun hlt => .inr ⟨rfl, hlt⟩
    · -- and the seats behind it have their pairs behind it
      intro p hp q hq
      obtain ⟨t, -, rfl⟩ := List.mem_map.1 hp
      exact .inl (hs q.1 ((mem_clashing hlater).1 hq).1)

theorem clashing_nodup (h : Ordered seats) : (clashing seats).Nodup := by
  refine (clashing_ordered h).imp ?_
  rintro p _ hlt rfl
  exact Earlier.irrefl p hlt

-- On one line, what clashes is what is in conflict.
theorem mem_clashing_iff_conflicts (h : Timetable zoned seats) (ho : Ordered seats) :
    (s, t) ∈ clashing seats ↔
      s ∈ seats ∧ t ∈ seats ∧ s.key.lt t.key ∧ s.conflicts t = .ok true := by
  rw [mem_clashing ho]
  refine and_congr_right fun hs => and_congr_right fun ht => and_congr_right fun _ => ?_
  rw [conflicts_eq (h.line s hs) (h.line t ht), Except.ok.injEq]

end Seat

namespace Roster

variable {as bs : List Assignment} {zoned : Bool}

section Sweep

variable (h : Seat.Timetable zoned (as.map (·.seat)))
  (hk : as.Pairwise fun a b => a.seat.key ≠ b.seat.key)
include h hk

-- Only one list has the seats in order, so it does not matter how they were given.
theorem conflictPairs_of_perm (hp : bs.Perm as) : conflictPairs bs = conflictPairs as := by
  have hk' : bs.Pairwise fun a b => a.seat.key ≠ b.seat.key :=
    (hp.pairwise_iff fun h => Ne.symm h).2 hk
  have h' : Seat.Timetable zoned (bs.map (·.seat)) :=
    h.sub fun s hs => (hp.map (·.seat)).mem_iff.1 hs
  obtain ⟨sorted, ho, hperm, hpairs⟩ := conflictPairs_eq h hk
  obtain ⟨sorted', ho', hperm', hpairs'⟩ := conflictPairs_eq h' hk'
  have hsame : sorted' = sorted := ho'.eq_of_mem_iff ho fun s => by
    rw [hperm'.mem_iff, hperm.mem_iff, (hp.map (·.seat)).mem_iff]
  rw [hpairs, hpairs', hsame]

-- The sweep over the seats in order finds the conflicts that are found by asking for every two seats:
-- 1. a pair is found if its first seat is before its second and the two are in conflict, and only then
-- 2. the pairs are in order, and none is found twice
-- 3. it does not matter in what order the seats are given
theorem conflictPairs_exact : ∃ pairs : List (Seat × Seat),
    conflictPairs as = .ok (pairs.map fun p => (p.1.id, p.2.id)) ∧
    (∀ s t, (s, t) ∈ pairs ↔ s ∈ as.map (·.seat) ∧ t ∈ as.map (·.seat) ∧ s.key.lt t.key ∧
      s.conflicts t = .ok true) ∧
    pairs.Pairwise Seat.Earlier ∧ pairs.Nodup ∧
    ∀ bs : List Assignment, bs.Perm as → conflictPairs bs = conflictPairs as := by
  obtain ⟨sorted, ho, hperm, hpairs⟩ := conflictPairs_eq h hk
  have ht : Seat.Timetable zoned sorted := h.sub fun s hs => hperm.mem_iff.1 hs
  refine ⟨Seat.clashing sorted, hpairs, fun s t => ?_, Seat.clashing_ordered ho,
    Seat.clashing_nodup ho, fun bs hp => conflictPairs_of_perm h hk hp⟩
  rw [Seat.mem_clashing_iff_conflicts ht ho, hperm.mem_iff, hperm.mem_iff]

end Sweep

-- Two seats of a flight and one of a flight that departs at the same moment, by clocks of two zones.
def Assignment.simultaneous : List Assignment :=
  let time (hours : ℕ) (zone : Zone) : Instant :=
    .ofDate (.after 739039) { Clock.after hours 0 0 with zone := some zone }
  let one : Flight := (⟨"1", "A", "B", time 10 .crew, time 12 .crew, "", "", []⟩ : Contents.Leg).flight
  let two : Flight := (⟨"2", "B", "A", time 8 .utc, time 9 .utc, "", "", []⟩ : Contents.Leg).flight
  [⟨⟨"b", two, .text "P", 0⟩, none⟩, ⟨⟨"d", one, .text "P", 1⟩, none⟩, ⟨⟨"c", one, .text "P", 0⟩, none⟩]

theorem conflictPairs_exact_simultaneous : ∃ pairs : List (Seat × Seat),
    Seat.Timetable true (Assignment.simultaneous.map (·.seat)) ∧
    Assignment.simultaneous.Pairwise (fun a b => a.seat.key ≠ b.seat.key) ∧
    conflictPairs Assignment.simultaneous = .ok (pairs.map fun p => (p.1.id, p.2.id)) ∧
    pairs.map (fun p => (p.1.id, p.2.id)) = [("c", "d"), ("c", "b"), ("d", "b")] ∧
    pairs.Pairwise Seat.Earlier := by
  have ht : Seat.Timetable true (Assignment.simultaneous.map (·.seat)) := by decide +kernel
  have hk : Assignment.simultaneous.Pairwise fun a b => a.seat.key ≠ b.seat.key := by decide +kernel
  obtain ⟨pairs, hpairs, -, hordered, -⟩ := conflictPairs_exact ht hk
  have hfound : conflictPairs Assignment.simultaneous =
      .ok [("c", "d"), ("c", "b"), ("d", "b")] := by
    rw [← conflictPairs_of_perm ht hk (List.reverse_perm _), conflictPairs, sortAssignments,
      List.mergeSort_of_pairwise (by decide +kernel)]
    decide +kernel
  exact ⟨pairs, ht, hk, hpairs, Except.ok.inj (hpairs.symm.trans hfound), hordered⟩

end Roster
end CrewRoster
