import CrewRoster.Proofs.Contents
import CrewRoster.Proofs.Edit

namespace CrewRoster

namespace Seat

variable {seats : List Seat} {s t u : Seat}

-- The keys of two seats compare, and the first is the smaller one.
def Before (s t : Seat) : Prop := s.comparable t ∧ s.key.lt t.key

instance : Decidable (s.Before t) := inferInstanceAs (Decidable (_ ∧ _))

theorem comparable_refl (s : Seat) : s.comparable s = true := by
  simp [comparable, Instant.comparable]

theorem comparable_symm (h : s.comparable t = true) : t.comparable s = true := by
  simp only [comparable, Instant.comparable, decide_eq_true_eq] at *
  exact h.symm

theorem comparable_trans (h : s.comparable t = true) (h' : t.comparable u = true) :
    s.comparable u = true := by
  simp only [comparable, Instant.comparable, decide_eq_true_eq] at *
  exact h.trans h'

theorem ordered_of_before (h : seats.Pairwise Before) : Ordered seats :=
  h.imp And.right

-- Seats whose keys compare with that of one seat compare with each other.
theorem before_of_ordered (h : Ordered seats) (hc : ∀ t ∈ seats, t.comparable s) :
    seats.Pairwise Before :=
  h.imp_of_mem fun ha hb hab =>
    ⟨comparable_trans (hc _ ha) (comparable_symm (hc _ hb)), hab⟩

theorem comparable_of_before (h : seats.Pairwise Before) (hs : s ∈ seats) (ht : t ∈ seats) :
    s.comparable t = true :=
  List.Pairwise.forall_of_forall_of_flip (fun u _ => comparable_refl u) (h.imp And.left)
    (h.imp fun hab => comparable_symm hab.1) hs ht

end Seat

namespace Duty

variable {d : Duty} {s t : Seat}

theorem indexOf?_of_getElem? {seats : List Seat} {i : Nat} (h : Seat.Ordered seats)
    (hi : seats[i]? = some s) : indexOf? seats s = some i := by
  obtain ⟨hlt, hget⟩ := List.getElem?_eq_some_iff.1 hi
  have hsplit : seats = seats.take i ++ s :: seats.drop (i + 1) := by
    rw [← hget, ← List.drop_eq_getElem_cons hlt, List.take_append_drop]
  have hplace := indexOf?_split (hsplit ▸ h)
  rwa [← hsplit, List.length_take, Nat.min_eq_left hlt.le] at hplace

-- Order leaves only one way to list the seats that were there.
theorem eraseSeat_insertSeat {seats : List Seat} (hid : ∀ t ∈ seats, t.id = s.id → t = s) (hn : s ∉ seats)
    (h : Seat.Ordered seats) (hk : ∀ t ∈ seats, t.key ≠ s.key) :
    eraseSeat (insertSeat seats s) s = seats := by
  have hord := insertSeat_ordered hid hn h hk
  have hadded : s ∈ insertSeat seats s := (mem_insertSeat hid hn).2 (.inl rfl)
  refine (eraseSeat_ordered hord hadded).eq_of_mem_iff h fun t => ?_
  rw [mem_eraseSeat hord hadded, mem_insertSeat hid hn]
  exact ⟨fun ⟨h, hne⟩ => h.resolve_left hne, fun h => ⟨.inr h, ne_of_mem_of_not_mem h hn⟩⟩

-- No other seat has the id of `s`, and every other key is smaller or greater.
def SetsApart (d : Duty) (s : Seat) : Prop :=
  ∀ t ∈ d.seats, t = s ∨ t.id ≠ s.id ∧ (t.Before s ∨ s.Before t)

instance : Decidable (d.SetsApart s) := inferInstanceAs (Decidable (∀ t ∈ d.seats, _))

-- What a duty makes of a seat that is set apart, with its seats in the order of their keys:
-- 1. a seat that is listed is found at its place, is not added again, and can be removed from the others,
--    which stay in order
-- 2. a seat that is missing is found nowhere, is not removed, and can be added to the others, all of them
--    in order; removed again, it leaves the duty as it was
structure Arranges (d : Duty) (s : Seat) : Prop where
  listed : ∀ i, d.seats[i]? = some s →
    d.position? s = .ok (some i) ∧ d.contains s = .ok true ∧ d.add s = .ok (d, false) ∧
      ∃ seats, d.remove s = .ok ({ d with seats }, true) ∧ seats.Pairwise Seat.Before ∧
        ∀ t, t ∈ seats ↔ t ∈ d.seats ∧ t ≠ s
  missing : s ∉ d.seats →
    d.position? s = .ok none ∧ d.contains s = .ok false ∧ d.remove s = .ok (d, false) ∧
      ∃ seats, d.add s = .ok ({ d with seats }, true) ∧ seats.Pairwise Seat.Before ∧
        (∀ t, t ∈ seats ↔ t = s ∨ t ∈ d.seats) ∧ remove { d with seats } s = .ok (d, true)

-- What a duty makes of a seat whose key does not compare with those of its seats: it does not say whether it
-- lists the seat, and neither takes it in nor out.
structure Refuses (d : Duty) (s : Seat) : Prop where
  position : d.position? s = .error .wrongType
  contains : d.contains s = .error .wrongType
  add : d.add s = .error .wrongType
  remove : d.remove s = .error .wrongType

-- How the seats of a duty are counted by their keys:
-- 1. as many come before a key as have a smaller one, and up to it as have no greater one
-- 2. halving the list again and again ends where a walk from the front does
structure Counts (d : Duty) : Prop where
  counted : ∀ k, countBefore d.seats k = d.seats.countP (·.key.lt k) ∧
    countUpTo d.seats k = d.seats.countP (·.key.le k)
  walked : ∀ k, countBefore d.seats k = (d.seats.takeWhile (·.key.lt k)).length ∧
    countUpTo d.seats k = (d.seats.takeWhile (·.key.le k)).length

theorem counts (h : Seat.Ordered d.seats) : d.Counts where
  counted k := by
    rw [countBefore_eq h, countUpTo_eq h]
    exact ⟨Lists.length_takeWhile_eq_countP (h.falling_lt k), Lists.length_takeWhile_eq_countP (h.falling_le k)⟩
  walked k := ⟨countBefore_eq h k, countUpTo_eq h k⟩

-- The seats compare with each other, so if one of them does not compare with `s`, neither does the one that is
-- looked at first.
theorem refuses (ho : d.seats.Pairwise Seat.Before) (ht : t ∈ d.seats) (hn : ¬t.comparable s) :
    d.Refuses s := by
  have horder : d.checkOrder s = .error .wrongType := by
    refine if_neg fun hall => hn ?_
    obtain ⟨u, hu, hprobed⟩ := Lists.middle_mem_probed (p := (·.key.lt s.key)) (List.ne_nil_of_mem ht)
    exact Seat.comparable_trans (Seat.comparable_of_before ho ht hu) (List.all_eq_true.1 hall u hprobed)
  have hplace : d.position? s = .error .wrongType := by
    rw [position?, horder]
    rfl
  constructor
  case position => exact hplace
  case contains =>
    rw [contains, hplace]
    rfl
  case add =>
    rw [add, hplace]
    rfl
  case remove =>
    rw [remove, hplace]
    rfl

namespace SetsApart

variable (hs : d.SetsApart s) (ho : d.seats.Pairwise Seat.Before)
include hs

theorem comparable : ∀ t ∈ d.seats, t.comparable s := by
  intro t ht
  rcases hs t ht with rfl | ⟨-, h | h⟩
  · exact Seat.comparable_refl t
  · exact h.1
  · exact Seat.comparable_symm h.1

theorem eq_of_id : ∀ t ∈ d.seats, t.id = s.id → t = s := fun t ht hid =>
  (hs t ht).resolve_right fun h => h.1 hid

theorem key_ne (hn : s ∉ d.seats) : ∀ t ∈ d.seats, t.key ≠ s.key := by
  intro t ht he
  rcases hs t ht with rfl | ⟨-, h | h⟩
  · exact hn ht
  · exact Seat.Key.irrefl _ (he ▸ h.2)
  · exact Seat.Key.irrefl _ (he ▸ h.2)

include ho

theorem listed {i : Nat} (hi : d.seats[i]? = some s) :
    d.position? s = .ok (some i) ∧ d.contains s = .ok true ∧ d.add s = .ok (d, false) ∧
      ∃ seats, d.remove s = .ok ({ d with seats }, true) ∧ seats.Pairwise Seat.Before ∧
        ∀ t, t ∈ seats ↔ t ∈ d.seats ∧ t ≠ s := by
  have hc := hs.comparable
  have horder : d.checkOrder s = .ok () := checkOrder_of_comparable hc
  have hord := Seat.ordered_of_before ho
  have hmem := List.mem_of_getElem? hi
  have hindex := indexOf?_of_getElem? hord hi
  have hkept : insertSeat d.seats s = d.seats := by simp [insertSeat, hindex]
  refine ⟨?_, ?_, ?_, eraseSeat d.seats s, ?_, ?_, fun t => mem_eraseSeat hord hmem⟩
  · rw [position?_of_checkOrder horder, hindex]
  · rw [contains_of_checkOrder horder, hindex, Option.isSome_some]
  · rw [add_eq_of_checkOrder horder, hindex, hkept, Option.isNone_some]
  · rw [remove_eq_of_checkOrder horder, hindex, Option.isSome_some]
  · exact Seat.before_of_ordered (eraseSeat_ordered hord hmem) fun t ht =>
      hc t ((eraseSeat_sublist d.seats s).mem ht)

theorem missing (hn : s ∉ d.seats) :
    d.position? s = .ok none ∧ d.contains s = .ok false ∧ d.remove s = .ok (d, false) ∧
      ∃ seats, d.add s = .ok ({ d with seats }, true) ∧ seats.Pairwise Seat.Before ∧
        (∀ t, t ∈ seats ↔ t = s ∨ t ∈ d.seats) ∧ remove { d with seats } s = .ok (d, true) := by
  have hc := hs.comparable
  have hid := hs.eq_of_id
  have horder : d.checkOrder s = .ok () := checkOrder_of_comparable hc
  have hord := Seat.ordered_of_before ho
  have hindex := indexOf?_eq_none hid hn
  have hkept : eraseSeat d.seats s = d.seats := by simp [eraseSeat, hindex]
  have hm : ∀ t, t ∈ insertSeat d.seats s ↔ t = s ∨ t ∈ d.seats := fun t => mem_insertSeat hid hn
  have hk := hs.key_ne hn
  have hord' := insertSeat_ordered hid hn hord hk
  have hc' : ∀ t ∈ insertSeat d.seats s, t.comparable s := by
    intro t ht
    rcases (hm t).1 ht with rfl | ht
    · exact Seat.comparable_refl t
    · exact hc t ht
  have horder' : checkOrder { d with seats := insertSeat d.seats s } s = .ok () := checkOrder_of_comparable hc'
  obtain ⟨i, hi⟩ := List.getElem?_of_mem ((hm s).2 (.inl rfl))
  refine ⟨?_, ?_, ?_, insertSeat d.seats s, ?_, Seat.before_of_ordered hord' hc', hm, ?_⟩
  · rw [position?_of_checkOrder horder, hindex]
  · rw [contains_of_checkOrder horder, hindex, Option.isSome_none]
  · rw [remove_eq_of_checkOrder horder, hindex, hkept, Option.isSome_none]
  · rw [add_eq_of_checkOrder horder, hindex, Option.isNone_none]
  · rw [remove_eq_of_checkOrder horder', indexOf?_of_getElem? hord' hi,
      eraseSeat_insertSeat hid hn hord hk, Option.isSome_some]

end SetsApart

-- Every duty with its seats in the order of their keys counts them by any key, deals in this way with every
-- seat that is set apart, and refuses a seat that does not compare with one of them.
theorem arranges (ho : d.seats.Pairwise Seat.Before) :
    d.Counts ∧ (∀ s, d.SetsApart s → d.Arranges s) ∧
      ∀ s, (∃ t ∈ d.seats, ¬t.comparable s) → d.Refuses s :=
  ⟨counts (Seat.ordered_of_before ho),
    fun _ hs => ⟨fun _ hi => hs.listed ho hi, fun hn => hs.missing ho hn⟩,
    fun _ ⟨_, ht, hn⟩ => refuses ho ht hn⟩

end Duty

-- A seat on a flight at eight o'clock, here or in a zone.
def Seat.atEight (id number : String) (index : Int) (zone : Option Zone := none) : Seat :=
  ⟨id, ⟨number, .text "A", .text "B", .ofDate (.after 739039) { Clock.after 8 0 0 with zone },
    .ofDate (.after 739039) { Clock.after 9 0 0 with zone }, .text "", .text ""⟩, .text "P", index⟩

namespace Duty

-- Two seats on one flight and one on another.
def simultaneous : Duty :=
  { placeholder "E" (.after 739039) with
    seats := [.atEight "a" "1" 0, .atEight "b" "1" 1, .atEight "d" "3" 0] }

-- The second seat of the first flight is listed, the one on a flight between the two is missing, and one whose
-- flight has a zone is refused.
theorem arranges_simultaneous : simultaneous.Counts ∧
    (.atEight "b" "1" 1 ∈ simultaneous.seats ∧ simultaneous.Arranges (.atEight "b" "1" 1)) ∧
    (.atEight "c" "2" 0 ∉ simultaneous.seats ∧ simultaneous.Arranges (.atEight "c" "2" 0)) ∧
    simultaneous.Refuses (.atEight "e" "2" 0 (some .utc)) := by
  obtain ⟨hcounts, harranges, hrefuses⟩ := arranges (d := simultaneous) (by decide)
  exact ⟨hcounts, ⟨by decide, harranges _ (by decide)⟩, ⟨by decide, harranges _ (by decide)⟩,
    hrefuses _ (by decide)⟩

end Duty
end CrewRoster
