import CrewRoster.Flight
import Mathlib.Algebra.BigOperators.Group.List.Basic
import Mathlib.Data.Nat.Digits.Defs

namespace CrewRoster

namespace Date

variable {d e : Date} {w m n : ℕ}

theorem toList_padded : (padded w n).toList =
    List.replicate (w - (Nat.toDigits 10 n).length) '0' ++ Nat.toDigits 10 n := by
  simp [padded]

theorem length_padded (hw : 0 < w) (h : n < 10 ^ w) : (padded w n).toList.length = w := by
  have := (Nat.length_toDigits_le_iff (by decide) hw).2 h
  rw [toList_padded, List.length_append, List.length_replicate]
  omega

-- The zeros in front do not count.
theorem padded_injective (h : padded w m = padded w n) : m = n := by
  have hread : ∀ k, Nat.ofDigitChars 10 (padded w k).toList 0 = k := fun k => by
    rw [toList_padded, Nat.ofDigitChars_append, Nat.ofDigitChars_replicate_zero, Nat.mul_zero,
      Nat.ofDigitChars_ten_toDigits]
  rw [← hread m, h, hread]

section Civil

variable {year month days left : ℕ}

theorem daysBeforeMonth_succ (h : 1 ≤ month) :
    daysBeforeMonth year (month + 1) = daysBeforeMonth year month + daysInMonth year month := by
  obtain ⟨k, rfl⟩ : ∃ k, month = k + 1 := ⟨month - 1, by omega⟩
  have hsum : ∀ l : List ℕ, l.foldr (fun m days => daysInMonth year (m + 1) + days) 0 =
      (l.map fun m => daysInMonth year (m + 1)).sum := fun l => by
    rw [List.sum_eq_foldr, List.foldr_map]
  simp only [daysBeforeMonth, hsum, Nat.add_sub_cancel, List.range_succ, List.map_append,
    List.sum_append, List.map_singleton, List.sum_singleton]

theorem daysBeforeMonth_end :
    daysBeforeMonth year 13 = 365 + if isLeapYear year then 1 else 0 := by
  cases h : isLeapYear year <;> simp [daysBeforeMonth, List.range_succ, daysInMonth, h]

-- The month that a day of the year falls into, the day counted from the months that are left.
theorem monthOf_spec (hl : left ≤ 12)
    (h : daysBeforeMonth year (13 - left) + days < daysBeforeMonth year 13) :
    (1 ≤ (monthOf year days left).1 ∧ (monthOf year days left).1 ≤ 12) ∧
      (monthOf year days left).2 ≤ 31 ∧
      daysBeforeMonth year (monthOf year days left).1 + (monthOf year days left).2 =
        daysBeforeMonth year (13 - left) + days + 1 := by
  induction left generalizing days with
  | zero =>
    rw [Nat.sub_zero] at h
    omega
  | succ left ih =>
    have hstep : daysBeforeMonth year (13 - left) =
        daysBeforeMonth year (12 - left) + daysInMonth year (12 - left) := by
      rw [← daysBeforeMonth_succ (by omega)]
      congr 1
      omega
    have he : 13 - (left + 1) = 12 - left := by omega
    rw [he] at h ⊢
    simp only [monthOf]
    split
    case isTrue hlt =>
      dsimp only
      have hmonth : daysInMonth year (12 - left) ≤ 31 := by
        unfold daysInMonth
        split
        · split <;> omega
        all_goals omega
      exact ⟨⟨by omega, by omega⟩, by omega, by omega⟩
    case isFalse hge =>
      obtain ⟨hm, hd, he⟩ := @ih (days - daysInMonth year (12 - left)) (by omega) (by omega)
      exact ⟨hm, hd, by omega⟩

-- Four hundred years are cut into centuries, those into four years each, and those into years; the last
-- part of each may be a day longer or shorter.
theorem exists_yearOf (days : ℕ) : ∃ a c q r t, yearOf days = (a * 4 + c) * 100 + q * 4 + r + 1 ∧
    (c ≤ 3 ∧ q ≤ 24 ∧ r ≤ 3) ∧ days = 146097 * a + 36524 * c + 1461 * q + 365 * r + t ∧
    (t < 365 ∨ t = 365 ∧ r = 3 ∧ (q ≠ 24 ∨ c = 3)) := by
  obtain ⟨x, hx⟩ : ∃ x, x = days % 146097 := ⟨_, rfl⟩
  obtain ⟨c, hc⟩ : ∃ c, c = min (x / 36524) 3 := ⟨_, rfl⟩
  obtain ⟨y, hy⟩ : ∃ y, y = x - c * 36524 := ⟨_, rfl⟩
  obtain ⟨z, hz⟩ : ∃ z, z = y % 1461 := ⟨_, rfl⟩
  obtain ⟨r, hr⟩ : ∃ r, r = min (z / 365) 3 := ⟨_, rfl⟩
  have hcentury : c ≤ 3 ∧ x = 36524 * c + y ∧ (y < 36524 ∨ y = 36524 ∧ c = 3) := by omega
  have hquad : y = 1461 * (y / 1461) + z ∧ z < 1461 := by omega
  have hyear : r ≤ 3 ∧ z = 365 * r + (z - 365 * r) ∧
      (z - 365 * r < 365 ∨ z - 365 * r = 365 ∧ r = 3 ∧ z = 1460) := by omega
  refine ⟨days / 146097, c, y / 1461, r, z - 365 * r, ?_, by omega, by omega, by omega⟩
  simp only [yearOf, hr, hz, hy, hc, hx]

theorem yearOf_spec (days : ℕ) : 1 ≤ yearOf days ∧ daysBeforeYear (yearOf days) ≤ days ∧
    days < daysBeforeYear (yearOf days) + daysBeforeMonth (yearOf days) 13 := by
  obtain ⟨a, c, q, r, t, hyear, hbounds, rfl, ht⟩ := exists_yearOf days
  generalize yearOf (146097 * a + 36524 * c + 1461 * q + 365 * r + t) = year at *
  obtain ⟨y, rfl⟩ : ∃ y, year = y + 1 := ⟨_, hyear⟩
  have hparts : y / 4 = 100 * a + 25 * c + q ∧ y / 100 = 4 * a + c ∧ y / 400 = a := by omega
  have hbefore : daysBeforeYear (y + 1) = 146097 * a + 36524 * c + 1461 * q + 365 * r := by
    simp only [daysBeforeYear, Nat.add_sub_cancel, hparts]
    omega
  -- the year that ends four of them is a leap year, unless it ends a century too
  have hleap : t = 365 → isLeapYear (y + 1) = true := by
    intro hlong
    obtain ⟨rfl, hlast⟩ : r = 3 ∧ (q ≠ 24 ∨ c = 3) := by omega
    have hy : y + 1 = (a * 4 + c) * 100 + (q + 1) * 4 := by omega
    simp only [isLeapYear, hy, Bool.and_eq_true, Bool.or_eq_true, decide_eq_true_eq]
    refine ⟨by omega, ?_⟩
    rcases hlast with hq | rfl
    · exact .inl (by omega)
    · rcases Nat.lt_or_ge q 24 with hq | hq
      · exact .inl (by omega)
      · exact .inr (by omega)
  rw [hbefore, daysBeforeMonth_end]
  refine ⟨by omega, by omega, ?_⟩
  split
  · omega
  · have : t ≠ 365 := mt hleap ‹_›
    omega

-- Year, month and day have few digits, and tell the day.
theorem civil_spec (d : Date) : (d.civil.1 < 10 ^ 4 ∧ d.civil.2.1 < 10 ^ 2 ∧ d.civil.2.2 < 10 ^ 2) ∧
    d.number = daysBeforeYear d.civil.1 + daysBeforeMonth d.civil.1 d.civil.2.1 + d.civil.2.2 := by
  obtain ⟨n, hn⟩ : ∃ n : ℕ, d.number = n + 1 := ⟨(d.number - 1).toNat, by have := d.one_le; omega⟩
  have hdays : (d.number - 1).toNat = n := by omega
  have hlast := d.le_last
  obtain ⟨-, hle, hlt⟩ := yearOf_spec n
  have hfirst : daysBeforeMonth (yearOf n) (13 - 12) = 0 := rfl
  obtain ⟨hmonth, hday, hsum⟩ :=
    @monthOf_spec (yearOf n) (n - daysBeforeYear (yearOf n)) 12 le_rfl (by omega)
  have hyear : yearOf n < 10 ^ 4 := by
    by_contra hge
    simp only [daysBeforeYear] at hle
    omega
  simp only [civil, hdays]
  exact ⟨⟨hyear, by omega, by omega⟩, by omega⟩

end Civil

theorem toList_text (d : Date) : d.text.toList = (padded 4 d.civil.1).toList ++ '-' ::
    ((padded 2 d.civil.2.1).toList ++ '-' :: (padded 2 d.civil.2.2).toList) := by
  simp [text, String.toList_append]

theorem length_text (d : Date) : d.text.toList.length = 10 := by
  obtain ⟨⟨hy, hm, hd⟩, -⟩ := d.civil_spec
  simp [toList_text, length_padded _ hy, length_padded _ hm, length_padded _ hd]

theorem text_injective (h : d.text = e.text) : d = e := by
  obtain ⟨⟨hy, hm, -⟩, hd⟩ := d.civil_spec
  obtain ⟨⟨hy', hm', -⟩, he⟩ := e.civil_spec
  have hlist := congrArg String.toList h
  rw [toList_text, toList_text] at hlist
  obtain ⟨hyear, hlist⟩ := List.append_inj hlist
    ((length_padded (by decide) hy).trans (length_padded (by decide) hy').symm)
  obtain ⟨hmonth, hlist⟩ := List.append_inj (List.cons.inj hlist).2
    ((length_padded (by decide) hm).trans (length_padded (by decide) hm').symm)
  have hyear := padded_injective (String.toList_injective hyear)
  have hmonth := padded_injective (String.toList_injective hmonth)
  have hday := padded_injective (String.toList_injective (List.cons.inj hlist).2)
  exact ext (by rw [hd, he, hyear, hmonth, hday])

end Date

-- The id of a flight tells its number and the day of its departure, since every date is written in as
-- many characters.
theorem Flight.id_eq_iff {f g : Flight} :
    f.id = g.id ↔ f.number = g.number ∧ f.departureDate = g.departureDate := by
  constructor
  · intro h
    have hlist := congrArg String.toList h
    simp only [Flight.id, String.toList_append] at hlist
    obtain ⟨hnumber, hdate⟩ := List.append_inj' hlist
      (f.departureDate.length_text.trans g.departureDate.length_text.symm)
    exact ⟨String.toList_injective (List.append_cancel_right hnumber),
      Date.text_injective (String.toList_injective hdate)⟩
  · rintro ⟨hnumber, hdate⟩
    rw [Flight.id, Flight.id, hnumber, hdate]

end CrewRoster
