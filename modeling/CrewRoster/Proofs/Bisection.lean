import CrewRoster.Bisection
import CrewRoster.Calendar
import Mathlib.Data.List.Basic

namespace CrewRoster.Lists

variable {α : Type} {p : α → Bool} {l xs ys : List α} {lo hi : Nat}

-- Whatever the list is like, the place is no further than `hi`.
theorem bisect_le (h : lo ≤ hi) : bisect p l lo hi ≤ hi := by
  fun_induction bisect p l lo hi with
  | case1 lo hi hlt middle hany ih => exact ih (by omega)
  | case2 lo hi hlt middle hany ih => exact Nat.le_trans (ih (by omega)) (by omega)
  | case3 lo hi hge => exact h

theorem mem_of_mem_probed {a : α} (h : a ∈ probed p l lo hi) : a ∈ l := by
  fun_induction probed p l lo hi with
  | case1 lo hi hlt middle ihback ihfront =>
    rcases List.mem_append.1 h with h | h
    · exact List.mem_of_getElem? (Option.mem_toList.1 h)
    · split at h
      case isTrue => exact ihback h
      case isFalse => exact ihfront h
  | case2 lo hi hge => cases h

-- The middle of the list is looked at first.
theorem middle_mem_probed (h : l ≠ []) : ∃ a ∈ l, a ∈ probed p l 0 l.length := by
  have hpos := List.length_pos_iff.2 h
  have hmiddle : (0 + l.length) / 2 < l.length := by omega
  refine ⟨_, List.getElem_mem hmiddle, ?_⟩
  rw [probed, if_pos hpos]
  exact List.mem_append_left _ (Option.mem_toList.2 (List.getElem?_eq_getElem hmiddle))

theorem any_getElem?_of_forall {i : Nat} (hi : i < l.length) (h : ∀ a ∈ l, p a) : l[i]?.any p = true := by
  rw [List.getElem?_eq_getElem hi]
  exact h _ (List.getElem_mem hi)

theorem not_any_getElem?_of_forall {i : Nat} (h : ∀ a ∈ l, ¬p a) : ¬l[i]?.any p = true := by
  intro ha
  obtain ⟨a, ha, hp⟩ := (Option.any_eq_true _ _).1 ha
  exact h a (List.mem_of_getElem? ha) hp

-- The place is never lost: it stays at `lo` or behind it, and no further than `hi`.
theorem bisect_append (hxs : ∀ a ∈ xs, p a) (hys : ∀ a ∈ ys, ¬p a) (hlo : lo ≤ xs.length)
    (hhi : xs.length ≤ hi) : bisect p (xs ++ ys) lo hi = xs.length := by
  fun_induction bisect p (xs ++ ys) lo hi with
  | case1 lo hi hlt middle hany ih =>
    have hfront : middle < xs.length := by
      by_contra hn
      rw [List.getElem?_append_right (Nat.not_lt.1 hn)] at hany
      exact not_any_getElem?_of_forall hys hany
    exact ih hfront hhi
  | case2 lo hi hlt middle hany ih =>
    have hback : xs.length ≤ middle := by
      by_contra hn
      rw [List.getElem?_append_left (Nat.not_le.1 hn)] at hany
      exact hany (any_getElem?_of_forall (Nat.not_le.1 hn) hxs)
    exact ih hlo hback
  | case3 lo hi hge => omega

theorem getElem?_length_takeWhile (p : α → Bool) (l : List α) :
    l[(l.takeWhile p).length]? = (l.dropWhile p).head? := by
  calc l[(l.takeWhile p).length]?
    _ = (l.takeWhile p ++ l.dropWhile p)[(l.takeWhile p).length]? := by
      rw [List.takeWhile_append_dropWhile]
    _ = (l.dropWhile p).head? := by
      rw [List.getElem?_append_right (Nat.le_refl _), Nat.sub_self, List.head?_eq_getElem?]

theorem insertIdx_length_takeWhile (p : α → Bool) (l : List α) (a : α) :
    l.insertIdx (l.takeWhile p).length a = l.takeWhile p ++ a :: l.dropWhile p := by
  induction l with
  | nil => rfl
  | cons b l ih =>
    by_cases h : p b
    · rw [List.takeWhile_cons, List.dropWhile_cons, if_pos h, if_pos h, List.length_cons,
        List.insertIdx_succ_cons, ih, List.cons_append]
    · rw [List.takeWhile_cons, List.dropWhile_cons, if_neg h, if_neg h]
      rfl

section Falling

-- What comes earlier has the property along with what comes later, so what has it comes first.
variable (h : l.Pairwise fun a b => p b → p a)
include h

theorem not_of_mem_dropWhile : ∀ a ∈ l.dropWhile p, ¬p a := fun _ =>
  CrewRoster.not_of_mem_dropWhile (r := fun a b => p b → p a) (fun _ _ h => h) h

theorem takeWhile_eq_filter : l.takeWhile p = l.filter p := by
  conv_rhs => rw [← List.takeWhile_append_dropWhile (p := p) (l := l), List.filter_append]
  have hkept : (l.takeWhile p).filter p = l.takeWhile p :=
    List.filter_eq_self.2 (List.all_eq_true.1 List.all_takeWhile)
  have hdropped : (l.dropWhile p).filter p = [] := List.filter_eq_nil_iff.2 (not_of_mem_dropWhile h)
  rw [hkept, hdropped, List.append_nil]

theorem dropWhile_eq_filter : l.dropWhile p = l.filter (!p ·) := by
  conv_rhs => rw [← List.takeWhile_append_dropWhile (p := p) (l := l), List.filter_append]
  have hdropped : (l.takeWhile p).filter (!p ·) = [] :=
    List.filter_eq_nil_iff.2 fun a ha => by simpa using List.all_eq_true.1 List.all_takeWhile a ha
  have hkept : (l.dropWhile p).filter (!p ·) = l.dropWhile p :=
    List.filter_eq_self.2 fun a ha => by simpa using not_of_mem_dropWhile h a ha
  rw [hdropped, hkept, List.nil_append]

theorem length_takeWhile_eq_countP : (l.takeWhile p).length = l.countP p := by
  rw [takeWhile_eq_filter h, List.countP_eq_length_filter]

theorem bisect_eq_length_takeWhile : bisect p l 0 l.length = (l.takeWhile p).length := by
  have hall : ∀ a ∈ l.takeWhile p, p a := List.all_eq_true.1 List.all_takeWhile
  have happend := bisect_append hall (not_of_mem_dropWhile h) (Nat.zero_le _)
    (List.takeWhile_sublist p).length_le
  rwa [List.takeWhile_append_dropWhile] at happend

end Falling

end CrewRoster.Lists
