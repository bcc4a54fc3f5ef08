import CrewRoster.Proofs.Bisection
import CrewRoster.Proofs.Lists
import Mathlib.Data.List.InsertIdx
import Mathlib.Data.Prod.Lex
import Mathlib.Data.String.Basic

namespace CrewRoster

namespace Seat.Key

-- The order of keys is the lexicographic order of their parts.
def rank (k : Key) : Int ×ₗ String ×ₗ Int :=
  toLex (k.departure, toLex (k.number, k.index))

theorem lt_iff {a b : Key} : a.lt b = true ↔ a.rank < b.rank := by
  simp [lt, rank, Prod.Lex.toLex_lt_toLex]

theorem le_iff {a b : Key} : a.le b = true ↔ a.rank ≤ b.rank := by
  rw [le, Bool.not_eq_true', ← Bool.not_eq_true, lt_iff, not_lt]

theorem rank_injective {a b : Key} (h : a.rank = b.rank) : a = b := by
  cases a
  cases b
  simpa [rank] using h

theorem irrefl (a : Key) : ¬a.lt a := by
  simp [lt_iff]

theorem trans {a b c : Key} (h : a.lt b) (h' : b.lt c) : a.lt c :=
  lt_iff.2 ((lt_iff.1 h).trans (lt_iff.1 h'))

theorem asymm {a b : Key} (h : a.lt b) : ¬b.lt a := fun h' =>
  irrefl _ (trans h h')

theorem lt_of_not_lt_of_ne {a b : Key} (h : ¬a.lt b) (hn : a ≠ b) : b.lt a := by
  rw [lt_iff] at *
  exact lt_of_le_of_ne (not_lt.1 h) fun he => hn (rank_injective he.symm)

theorem departure_le_of_lt {a b : Key} (h : a.lt b) : a.departure ≤ b.departure := by
  simp only [lt, Bool.or_eq_true, Bool.and_eq_true, decide_eq_true_eq] at h
  omega

end Seat.Key

-- Seats stand in the order of their keys, and no key comes twice.
def Seat.Ordered (seats : List Seat) : Prop := seats.Pairwise fun a b => a.key.lt b.key

namespace Seat.Ordered

variable {seats before after : List Seat} {s t : Seat} {k : Key}

theorem nodup (h : Ordered seats) : seats.Nodup := by
  refine List.Pairwise.imp ?_ h
  rintro a _ hlt rfl
  exact Key.irrefl _ hlt

-- Order leaves only one way to list the same seats.
theorem eq_of_mem_iff {seats' : List Seat} (h : Ordered seats) (h' : Ordered seats')
    (hm : ∀ s, s ∈ seats ↔ s ∈ seats') : seats = seats' :=
  Lists.eq_of_ordered Key.asymm h h' hm

theorem lt_of_split (h : Ordered (before ++ s :: after)) :
    (∀ a ∈ before, a.key.lt s.key) ∧ ∀ b ∈ after, s.key.lt b.key := by
  obtain ⟨-, ha, hb⟩ := List.pairwise_append.1 h
  exact ⟨fun a hm => hb a hm s List.mem_cons_self, (List.pairwise_cons.1 ha).1⟩

theorem first_departure_le (h : Ordered seats) (hf : seats.head? = some t) (hs : s ∈ seats) :
    t.key.departure ≤ s.key.departure := by
  obtain ⟨after, rfl⟩ := List.head?_eq_some_iff.1 hf
  rcases List.mem_cons.1 hs with rfl | hs
  · exact le_rfl
  · exact Key.departure_le_of_lt ((List.pairwise_cons.1 h).1 s hs)

theorem departure_le_last (h : Ordered seats) (hl : seats.getLast? = some t) (hs : s ∈ seats) :
    s.key.departure ≤ t.key.departure := by
  obtain ⟨before, rfl⟩ := List.getLast?_eq_some_iff.1 hl
  rcases List.mem_append.1 hs with hs | hs
  · exact Key.departure_le_of_lt ((lt_of_split h).1 s hs)
  · rw [List.mem_singleton.1 hs]

section Falling

variable (h : Ordered seats)
include h

-- Seats with a smaller key come first, and so do seats with no greater one.
theorem falling_lt (k : Key) : seats.Pairwise fun a b => b.key.lt k → a.key.lt k :=
  h.imp fun hab => Key.trans hab

theorem falling_le (k : Key) : seats.Pairwise fun a b => b.key.le k → a.key.le k :=
  h.imp fun hab hb => Key.le_iff.2 ((Key.lt_iff.1 hab).le.trans (Key.le_iff.1 hb))

theorem takeWhile_lt (k : Key) : seats.takeWhile (·.key.lt k) = seats.filter (·.key.lt k) :=
  Lists.takeWhile_eq_filter (h.falling_lt k)

theorem dropWhile_le (k : Key) : seats.dropWhile (·.key.le k) = seats.filter (k.lt ·.key) := by
  rw [Lists.dropWhile_eq_filter (h.falling_le k)]
  simp [Key.le]

end Falling

theorem not_lt_of_mem_dropWhile (h : Ordered seats) (ht : t ∈ seats.dropWhile (·.key.lt k)) :
    ¬t.key.lt k :=
  Lists.not_of_mem_dropWhile (h.falling_lt k) t ht

theorem takeWhile_split (h : Ordered (before ++ s :: after)) :
    (before ++ s :: after).takeWhile (·.key.lt s.key) = before := by
  rw [List.takeWhile_append_of_pos (lt_of_split h).1,
    List.takeWhile_cons, if_neg (Key.irrefl s.key), List.append_nil]

end Seat.Ordered

namespace Duty

variable {seats : List Seat} {s t : Seat}

section Counting

variable (h : Seat.Ordered seats)
include h

-- In an ordered list halving ends where a walk from the front does.
theorem countBefore_eq (k : Seat.Key) : countBefore seats k = (seats.takeWhile (·.key.lt k)).length :=
  Lists.bisect_eq_length_takeWhile (h.falling_lt k)

theorem countUpTo_eq (k : Seat.Key) : countUpTo seats k = (seats.takeWhile (·.key.le k)).length :=
  Lists.bisect_eq_length_takeWhile (h.falling_le k)

end Counting

theorem countBefore_le (seats : List Seat) (k : Seat.Key) : countBefore seats k ≤ seats.length :=
  Lists.bisect_le (Nat.zero_le _)

-- A seat that is listed is found at its place.
theorem indexOf?_split {before after : List Seat}
    (h : Seat.Ordered (before ++ s :: after)) :
    indexOf? (before ++ s :: after) s = some before.length := by
  have hc : countBefore (before ++ s :: after) s.key = before.length := by
    rw [countBefore_eq h, h.takeWhile_split]
  simp [indexOf?, hc]

-- Where ids tell seats apart, only a seat that is listed is found.
theorem indexOf?_eq_none (hid : ∀ t ∈ seats, t.id = s.id → t = s) (hs : s ∉ seats) :
    indexOf? seats s = none := by
  have hn : ¬(seats[countBefore seats s.key]?).any (·.id == s.id) := by
    intro h
    rw [Option.any_eq_true] at h
    obtain ⟨t, ht, hi⟩ := h
    have ht := List.mem_of_getElem? ht
    exact hs (hid t ht (by simpa using hi) ▸ ht)
  exact if_neg hn

theorem isSome_indexOf? (ho : Seat.Ordered seats) (hid : ∀ t ∈ seats, t.id = s.id → t = s) :
    (indexOf? seats s).isSome = true ↔ s ∈ seats := by
  by_cases hs : s ∈ seats
  · obtain ⟨before, after, rfl⟩ := List.append_of_mem hs
    simp [indexOf?_split ho]
  · simp [indexOf?_eq_none hid hs, hs]

-- Whether the list is in order or not, nothing but the seat comes to it, and nothing else leaves it.
theorem mem_of_mem_insertSeat (h : t ∈ insertSeat seats s) : t = s ∨ t ∈ seats := by
  unfold insertSeat at h
  split at h
  case isTrue => exact .inr h
  case isFalse => exact List.eq_or_mem_of_mem_insertIdx h

theorem insertSeat_ne_nil (seats : List Seat) (s : Seat) : insertSeat seats s ≠ [] := by
  unfold insertSeat
  split
  case isTrue h =>
    rintro rfl
    simp [indexOf?] at h
  case isFalse =>
    exact fun hnil => by simpa [hnil] using List.length_insertIdx_of_le_length (countBefore_le seats s.key) s

theorem eraseSeat_sublist (seats : List Seat) (s : Seat) : (eraseSeat seats s).Sublist seats := by
  unfold eraseSeat
  cases indexOf? seats s with
  | none => exact .refl _
  | some i => exact List.eraseIdx_sublist _ i

section Insert

variable (hid : ∀ t ∈ seats, t.id = s.id → t = s) (hs : s ∉ seats)
include hid hs

theorem insertSeat_eq : insertSeat seats s = seats.insertIdx (countBefore seats s.key) s := by
  simp [insertSeat, indexOf?_eq_none hid hs]

theorem insertSeat_perm : (insertSeat seats s).Perm (s :: seats) := by
  rw [insertSeat_eq hid hs]
  exact List.perm_insertIdx s seats (countBefore_le seats s.key)

theorem mem_insertSeat : t ∈ insertSeat seats s ↔ t = s ∨ t ∈ seats := by
  rw [(insertSeat_perm hid hs).mem_iff, List.mem_cons]

theorem insertSeat_ordered (ho : Seat.Ordered seats) (hk : ∀ t ∈ seats, t.key ≠ s.key) :
    Seat.Ordered (insertSeat seats s) := by
  rw [insertSeat_eq hid hs, countBefore_eq ho, Lists.insertIdx_length_takeWhile, Seat.Ordered,
    List.pairwise_append, List.pairwise_cons]
  have hbefore : ∀ a ∈ seats.takeWhile (·.key.lt s.key), a.key.lt s.key := fun a ha =>
    List.all_eq_true.1 List.all_takeWhile a ha
  have hafter : ∀ b ∈ seats.dropWhile (·.key.lt s.key), s.key.lt b.key := fun b hb =>
    Seat.Key.lt_of_not_lt_of_ne (ho.not_lt_of_mem_dropWhile hb)
      (hk b ((List.dropWhile_sublist _).mem hb))
  refine ⟨List.Pairwise.sublist (List.takeWhile_sublist _) ho,
    ⟨hafter, List.Pairwise.sublist (List.dropWhile_sublist _) ho⟩, ?_⟩
  intro a ha b hb
  rcases List.mem_cons.1 hb with rfl | hb
  · exact hbefore a ha
  · exact Seat.Key.trans (hbefore a ha) (hafter b hb)

end Insert

section Erase

variable (ho : Seat.Ordered seats) (hs : s ∈ seats)
include ho hs

theorem eraseSeat_eq : eraseSeat seats s = seats.erase s := by
  obtain ⟨before, after, rfl⟩ := List.append_of_mem hs
  have hn : s ∉ before := fun hb => Seat.Key.irrefl _ (ho.lt_of_split.1 s hb)
  rw [eraseSeat, indexOf?_split ho, Option.elim_some, List.eraseIdx_append_of_length_le (le_refl _),
    Nat.sub_self, List.eraseIdx_cons_zero, List.erase_append_right _ hn, List.erase_cons_head]

theorem mem_eraseSeat : t ∈ eraseSeat seats s ↔ t ∈ seats ∧ t ≠ s := by
  rw [eraseSeat_eq ho hs, ho.nodup.mem_erase_iff, and_comm]

theorem eraseSeat_ordered : Seat.Ordered (eraseSeat seats s) := by
  rw [eraseSeat_eq ho hs]
  exact List.Pairwise.sublist List.erase_sublist ho

end Erase

end Duty
end CrewRoster
