import CrewRoster.Proofs.Rounding
import Mathlib.Algebra.Ring.Int.Parity

namespace CrewRoster

variable {q x y : ℚ} {m n : ℤ}

section Whole

theorem abs_roundEven_le (h : |q| ≤ n) : |roundEven q| ≤ n := by
  obtain ⟨hlow, hhigh⟩ := abs_le.1 h
  exact abs_le.2 ⟨le_roundEven (by push_cast; exact hlow), roundEven_le hhigh⟩

theorem one_le_abs_sub_add_abs_sub (h : m ≠ n) : (1 : ℚ) ≤ |m - q| + |n - q| := by
  have hone : (1 : ℚ) ≤ |(m : ℚ) - n| := by exact_mod_cast Int.one_le_abs (sub_ne_zero.2 h)
  calc (1 : ℚ) ≤ |(m : ℚ) - n| := hone
    _ ≤ |m - q| + |q - n| := abs_sub_le _ _ _
    _ = |m - q| + |n - q| := by rw [abs_sub_comm q]

-- No other whole number is nearer, and if one is as near, the even one is taken.
theorem abs_roundEven_sub_le_abs (q : ℚ) (m : ℤ) : |roundEven q - q| ≤ |m - q| := by
  by_cases hm : m = roundEven q
  · rw [hm]
  · have := one_le_abs_sub_add_abs_sub (q := q) hm
    have := abs_roundEven_sub_le q
    linarith

theorem even_roundEven (hm : m ≠ roundEven q) (h : |m - q| = |roundEven q - q|) :
    Even (roundEven q) := by
  have hhalf : 1 / 2 ≤ |roundEven q - q| := by
    have := one_le_abs_sub_add_abs_sub (q := q) hm
    linarith
  have hfloor : q.floor = ⌊q⌋ := rfl
  have hlow := Int.floor_le q
  have hhigh := Int.lt_floor_add_one q
  rw [Int.even_iff]
  simp only [roundEven, hfloor] at hhalf ⊢
  split_ifs at hhalf ⊢ with h₁ h₂ h₃
  · rw [abs_sub_comm, abs_of_nonneg (by linarith)] at hhalf
    linarith
  · push_cast at hhalf
    rw [abs_of_nonneg (by linarith)] at hhalf
    linarith
  · exact h₃
  · omega

end Whole

-- What it is for `x` to be `q` rounded to the 53 binary digits that a double keeps, whatever its exponent:
-- 1. it has no more digits than that
-- 2. nothing else that has no more digits is nearer to `q`
-- 3. if something else is as near, the last digit of `x` is even
structure RoundsTo (q x : ℚ) : Prop where
  short : IsShort x
  least : ∀ y, IsShort y → |x - q| ≤ |y - q|
  even : ∀ y, IsShort y → y ≠ x → |y - q| = |x - q| → ∃ n k : ℤ, |n| < 2 ^ 53 ∧ Even n ∧ x = n * 2 ^ k

section Grid

-- How far a point of the grid is from `q`, in steps of the grid.
theorem abs_grid_sub (q : ℚ) (m : ℤ) : |m * 2 ^ (binade q - 52) - q| =
    |m - q / 2 ^ (binade q - 52)| * 2 ^ (binade q - 52) := by
  have hunit : (0 : ℚ) < 2 ^ (binade q - 52) := by positivity
  rw [← abs_of_pos hunit, ← abs_mul, sub_mul, abs_of_pos hunit, div_mul_cancel₀ _ hunit.ne']

theorem abs_gridUnits_le (q : ℚ) : |roundEven (q / 2 ^ (binade q - 52))| ≤ 2 ^ 53 := by
  have hunit : (0 : ℚ) < 2 ^ (binade q - 52) := by positivity
  have hend : (2 : ℚ) ^ (binade q + 1) = 2 ^ 53 * 2 ^ (binade q - 52) := by
    rw [zpow_add_one₀ two_ne_zero, zpow_sub₀ two_ne_zero]
    ring
  refine abs_roundEven_le (n := 2 ^ 53) ?_
  rw [abs_div, abs_of_pos hunit, div_le_iff₀ hunit]
  exact_mod_cast (abs_lt_zpow_binade q).le.trans_eq hend

-- Between `q` and a double there is a point of the grid.
theorem IsShort.exists_grid (hy : IsShort y) (hq : q ≠ 0) :
    ∃ m : ℤ, |m * 2 ^ (binade q - 52) - q| ≤ |y - q| ∧
      (|m * 2 ^ (binade q - 52) - q| = |y - q| → m * 2 ^ (binade q - 52) = y) := by
  rcases le_total q y with hle | hle
  · obtain ⟨m, hlow, hhigh⟩ := hy.exists_grid_between hq hle
    refine ⟨m, ?_⟩
    rw [abs_of_nonneg (sub_nonneg.2 hlow), abs_of_nonneg (sub_nonneg.2 hle)]
    exact ⟨by linarith, fun h => by linarith⟩
  · obtain ⟨m, hlow, hhigh⟩ := hy.neg.exists_grid_between (neg_ne_zero.2 hq) (neg_le_neg hle)
    rw [binade_neg] at hlow hhigh
    refine ⟨-m, ?_⟩
    rw [Int.cast_neg, neg_mul, abs_of_nonpos (by linarith), abs_of_nonpos (sub_nonpos.2 hle)]
    exact ⟨by linarith, fun h => by linarith⟩

end Grid

theorem isShort_nearest (q : ℚ) : IsShort (nearest q) := by
  by_cases hq : q = 0
  · rw [hq, nearest_zero]
    exact_mod_cast IsShort.ofInt (n := 0) (by norm_num)
  · exact ⟨_, _, abs_gridUnits_le q, nearest_eq hq⟩

theorem abs_nearest_sub_le (hy : IsShort y) : |nearest q - q| ≤ |y - q| := by
  by_cases hq : q = 0
  · simp [hq]
  · obtain ⟨m, hm, -⟩ := hy.exists_grid hq
    have hunit : (0 : ℚ) < 2 ^ (binade q - 52) := by positivity
    calc |nearest q - q|
        = |roundEven (q / 2 ^ (binade q - 52)) - q / 2 ^ (binade q - 52)| * 2 ^ (binade q - 52) := by
          rw [nearest_eq hq, abs_grid_sub]
      _ ≤ |m - q / 2 ^ (binade q - 52)| * 2 ^ (binade q - 52) := by
          exact mul_le_mul_of_nonneg_right (abs_roundEven_sub_le_abs _ m) hunit.le
      _ = |m * 2 ^ (binade q - 52) - q| := (abs_grid_sub q m).symm
      _ ≤ |y - q| := hm

-- A number of at most `2 ^ 53` steps that is even has an even last digit: `2 ^ 53` itself is 2, farther out.
theorem exists_even {k : ℤ} (h : |n| ≤ 2 ^ 53) (he : Even n) :
    ∃ n' k' : ℤ, |n'| < 2 ^ 53 ∧ Even n' ∧ (n : ℚ) * 2 ^ k = n' * 2 ^ k' := by
  rcases h.lt_or_eq with hlt | heq
  · exact ⟨n, k, hlt, he, rfl⟩
  · have hpow : (2 : ℚ) ^ (k + 52) = 2 ^ 52 * 2 ^ k := by
      rw [zpow_add₀ two_ne_zero, mul_comm]
      norm_num
    rcases (abs_eq (by norm_num)).1 heq with rfl | rfl
    · exact ⟨2, k + 52, by norm_num, even_two, by rw [hpow]; push_cast; ring⟩
    · exact ⟨-2, k + 52, by norm_num, even_two.neg, by rw [hpow]; push_cast; ring⟩

theorem even_nearest (hy : IsShort y) (hne : y ≠ nearest q) (h : |y - q| = |nearest q - q|) :
    ∃ n k : ℤ, |n| < 2 ^ 53 ∧ Even n ∧ nearest q = n * 2 ^ k := by
  by_cases hq : q = 0
  · rw [hq, nearest_zero, sub_zero, sub_zero, abs_zero, abs_eq_zero] at h
    rw [hq, nearest_zero] at hne
    exact absurd h hne
  · obtain ⟨m, hle, hy⟩ := hy.exists_grid hq
    have hunit : (0 : ℚ) < 2 ^ (binade q - 52) := by positivity
    rw [nearest_eq hq, abs_grid_sub] at h
    rw [h, abs_grid_sub] at hle hy
    have htie := (le_of_mul_le_mul_right hle hunit).antisymm (abs_roundEven_sub_le_abs _ m)
    have hm : m ≠ roundEven (q / 2 ^ (binade q - 52)) := by
      rintro rfl
      exact hne ((hy rfl).symm.trans (nearest_eq hq).symm)
    rw [nearest_eq hq]
    exact exists_even (abs_gridUnits_le q) (even_roundEven hm htie)

namespace RoundsTo

theorem nearest (q : ℚ) : RoundsTo q (nearest q) where
  short := isShort_nearest q
  least _ hy := abs_nearest_sub_le hy
  even _ hy hne h := even_nearest hy hne h

-- What has an even last digit is not next to what is even as well, and no finer than it.
theorem exists_between {n₁ n₂ k₁ k₂ : ℤ} (hk : k₁ ≤ k₂) (h : |n₁| < 2 ^ 53) (h₁ : Even n₁) (h₂ : Even n₂)
    (hlt : (n₁ : ℚ) * 2 ^ k₁ < n₂ * 2 ^ k₂) :
    ∃ z, IsShort z ∧ (n₁ : ℚ) * 2 ^ k₁ < z ∧ z < n₂ * 2 ^ k₂ := by
  have hunit : (0 : ℚ) < 2 ^ k₁ := by positivity
  obtain ⟨i, rfl⟩ := Int.le.dest hk
  have hscale : (n₂ : ℚ) * 2 ^ (k₁ + i) = (n₂ * 2 ^ i : ℤ) * 2 ^ k₁ := by
    push_cast
    rw [zpow_add₀ two_ne_zero, zpow_natCast]
    ring
  rw [hscale, mul_lt_mul_iff_left₀ hunit, Int.cast_lt] at hlt
  have hnext : n₁ + 1 < n₂ * 2 ^ i := by
    have := (h₂.mul_right (2 ^ i)).two_dvd
    have := h₁.two_dvd
    omega
  refine ⟨(n₁ + 1 : ℤ) * 2 ^ k₁, ⟨n₁ + 1, k₁, ?_, rfl⟩, ?_, ?_⟩
  · obtain ⟨hlow, hhigh⟩ := abs_lt.1 h
    exact abs_le.2 ⟨by omega, by omega⟩
  · exact mul_lt_mul_of_pos_right (Int.cast_lt.2 (lt_add_one n₁)) hunit
  · rw [hscale]
    exact mul_lt_mul_of_pos_right (Int.cast_lt.2 hnext) hunit

theorem le (hx : RoundsTo q x) (hy : RoundsTo q y) : y ≤ x := by
  by_contra! hlt
  have hdist : |x - q| = |y - q| := (hx.least y hy.short).antisymm (hy.least x hx.short)
  obtain ⟨n₁, k₁, hn₁, he₁, rfl⟩ := hx.even y hy.short hlt.ne' hdist.symm
  obtain ⟨n₂, k₂, hn₂, he₂, rfl⟩ := hy.even _ hx.short hlt.ne hdist
  obtain ⟨z, hz, hxz, hzy⟩ : ∃ z, IsShort z ∧ (n₁ : ℚ) * 2 ^ k₁ < z ∧ z < n₂ * 2 ^ k₂ := by
    rcases le_total k₁ k₂ with hk | hk
    · exact exists_between hk hn₁ he₁ he₂ hlt
    · have hneg : ((-n₂ : ℤ) : ℚ) * 2 ^ k₂ < (-n₁ : ℤ) * 2 ^ k₁ := by
        push_cast
        linarith
      obtain ⟨z, hz, hlow, hhigh⟩ := exists_between hk (by rwa [abs_neg]) he₂.neg he₁.neg hneg
      push_cast at hlow hhigh
      exact ⟨-z, hz.neg, by linarith, by linarith⟩
  -- a number between the two is nearer than one of them
  rcases le_total q z with hqz | hqz
  · have := hy.least z hz
    rw [abs_of_nonneg (sub_nonneg.2 hqz), abs_of_nonneg (by linarith)] at this
    linarith
  · have := hx.least z hz
    rw [abs_of_nonpos (sub_nonpos.2 hqz), abs_of_nonpos (by linarith)] at this
    linarith

-- So there is one number only that `q` is rounded to.
theorem unique (hx : RoundsTo q x) (hy : RoundsTo q y) : x = y :=
  le_antisymm (hy.le hx) (hx.le hy)

end RoundsTo

end CrewRoster
