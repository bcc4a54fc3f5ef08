import CrewRoster.Number.Rounding
import Mathlib.Data.Rat.Floor
import Mathlib.Algebra.Order.Field.Power
import Mathlib.Tactic.Positivity
import Mathlib.Tactic.Linarith
import Mathlib.Tactic.FieldSimp

namespace CrewRoster

variable {p q : ℚ} {n k : ℤ}

section Whole

theorem roundEven_cases (q : ℚ) :
    roundEven q = ⌊q⌋ ∨ roundEven q = ⌊q⌋ + 1 ∧ (⌊q⌋ : ℚ) + 1 / 2 ≤ q := by
  have hf : q.floor = ⌊q⌋ := rfl
  simp only [roundEven, hf]
  split_ifs with h₁ h₂ h₃
  · exact .inl rfl
  · exact .inr ⟨rfl, by linarith⟩
  · exact .inl rfl
  · exact .inr ⟨rfl, by linarith⟩

theorem roundEven_le (h : q ≤ n) : roundEven q ≤ n := by
  rcases roundEven_cases q with he | ⟨he, hhalf⟩
  · rw [he]
    exact_mod_cast (Int.floor_le q).trans h
  · have : (⌊q⌋ : ℚ) < n := by linarith
    rw [he]
    exact_mod_cast this

theorem roundEven_lt (h : q < n - 1 / 2) : roundEven q < n := by
  have hq : (⌊q⌋ : ℚ) < n := (Int.floor_le q).trans_lt (h.trans_le (by linarith))
  rcases roundEven_cases q with he | ⟨he, hhalf⟩
  · rw [he]
    exact_mod_cast hq
  · have : (⌊q⌋ : ℚ) + 1 < n := by linarith
    rw [he]
    exact_mod_cast this

theorem le_roundEven (h : n ≤ q) : n ≤ roundEven q := by
  have := Int.le_floor.2 h
  rcases roundEven_cases q with he | ⟨he, -⟩ <;> omega

theorem abs_roundEven_sub_le (q : ℚ) : |roundEven q - q| ≤ 1 / 2 := by
  have hf : q.floor = ⌊q⌋ := rfl
  have hlow := Int.floor_le q
  have hhigh := Int.lt_floor_add_one q
  simp only [roundEven, hf]
  split_ifs <;> refine abs_le.2 ⟨?_, ?_⟩ <;> push_cast <;> linarith

-- Of two numbers that are rounded the wrong way round, neither is more than a half away, so they are one.
theorem roundEven_mono (h : p ≤ q) : roundEven p ≤ roundEven q := by
  by_contra! hlt
  have hlt : (roundEven q : ℚ) + 1 ≤ roundEven p := by exact_mod_cast hlt
  have hp := abs_le.1 (abs_roundEven_sub_le p)
  have hq := abs_le.1 (abs_roundEven_sub_le q)
  obtain rfl : p = q := by linarith
  linarith

theorem roundEven_intCast (n : ℤ) : roundEven n = n :=
  le_antisymm (roundEven_le le_rfl) (le_roundEven le_rfl)

-- Neighbours change places when the sign changes, and the even one stays even.
theorem roundEven_neg (q : ℚ) : roundEven (-q) = -roundEven q := by
  have hlow := Int.floor_le q
  rcases hlow.eq_or_lt with heq | hlt
  · rw [← heq, ← Int.cast_neg, roundEven_intCast, roundEven_intCast]
  · have hhigh := Int.lt_floor_add_one q
    have hfloor : ⌊-q⌋ = -⌊q⌋ - 1 :=
      Int.floor_eq_iff.2 ⟨by push_cast; linarith, by push_cast; linarith⟩
    have hq : ∀ q : ℚ, q.floor = ⌊q⌋ := fun _ => rfl
    simp only [roundEven, hq, hfloor]
    push_cast
    split_ifs <;> first | omega | (exfalso; linarith)

theorem truncate_le (h : q < n + 1) (hn : 0 ≤ n) : truncate q ≤ n := by
  rw [truncate]
  split_ifs with hq
  · have : 0 ≤ ⌊-q⌋ := Int.floor_nonneg.2 (by linarith)
    exact (neg_nonpos.2 this).trans hn
  · exact Int.lt_add_one_iff.1 (Int.floor_lt.2 (by exact_mod_cast h))

theorem truncate_neg (q : ℚ) : truncate (-q) = -truncate q := by
  rcases lt_trichotomy q 0 with h | rfl | h
  · rw [truncate, truncate, if_pos h, if_neg (by linarith), neg_neg]
  · rfl
  · rw [truncate, truncate, if_neg (not_lt.2 h.le), if_pos (by linarith), neg_neg]

theorem truncate_intCast (n : ℤ) : truncate n = n := by
  rw [truncate]
  split_ifs
  · rw [← Int.cast_neg, Rat.floor_intCast, neg_neg]
  · exact Rat.floor_intCast n

theorem truncate_mono (h : p ≤ q) : truncate p ≤ truncate q := by
  simp only [truncate]
  split_ifs with hp hq hq
  · exact neg_le_neg (Int.floor_mono (neg_le_neg h))
  · have hlow : 0 ≤ ⌊-p⌋ := Int.floor_nonneg.2 (by linarith)
    have hhigh : 0 ≤ ⌊q⌋ := Int.floor_nonneg.2 (not_lt.1 hq)
    exact (neg_nonpos.2 hlow).trans hhigh
  · linarith
  · exact Int.floor_mono h

theorem abs_truncate_le (h : |q| ≤ n) : |truncate q| ≤ n := by
  have hn : 0 ≤ n := by exact_mod_cast (abs_nonneg q).trans h
  obtain ⟨hlow, hhigh⟩ := abs_le.1 h
  have hneg := truncate_le (q := -q) (n := n) (by linarith) hn
  rw [truncate_neg] at hneg
  exact abs_le.2 ⟨by omega, truncate_le (by linarith) hn⟩

end Whole

section Binary

theorem powTwo_eq_zpow (k : ℤ) : powTwo k = 2 ^ k := by
  rw [powTwo]
  split_ifs with h
  · lift k to ℕ using h
    simp
  · obtain ⟨m, rfl⟩ : ∃ m : ℕ, k = -m := ⟨(-k).toNat, by omega⟩
    simp

theorem rat_abs_eq (q : ℚ) : q.abs = |q| := by
  rw [Rat.abs]
  split_ifs with h
  · exact (abs_of_nonneg h).symm
  · exact (abs_of_neg (not_le.1 h)).symm

theorem abs_eq_div (q : ℚ) : |q| = q.num.natAbs / q.den := by
  rw [Rat.abs_def, Rat.divInt_eq_div, Int.cast_natCast, Int.cast_natCast]

@[simp] theorem binade_neg (q : ℚ) : binade (-q) = binade q := by
  simp [binade, rat_abs_eq]

theorem zpow_binade_le (h : q ≠ 0) : (2 : ℚ) ^ binade q ≤ |q| := by
  simp only [binade, powTwo_eq_zpow, rat_abs_eq]
  split_ifs with hlt
  · -- the numerator has at least its highest binary digit, the denominator less than one more
    have hnum : q.num.natAbs ≠ 0 := by simpa using h
    have hlow : ((2 ^ q.num.natAbs.log2 : ℕ) : ℚ) ≤ q.num.natAbs :=
      Nat.cast_le.2 (Nat.log2_self_le hnum)
    have hhigh : (q.den : ℚ) ≤ (2 ^ (q.den.log2 + 1) : ℕ) := Nat.cast_le.2 Nat.lt_log2_self.le
    have hden : (0 : ℚ) < q.den := Nat.cast_pos.2 q.pos
    rw [abs_eq_div, le_div_iff₀ hden]
    calc (2 : ℚ) ^ ((q.num.natAbs.log2 : ℤ) - q.den.log2 - 1) * q.den
        ≤ 2 ^ ((q.num.natAbs.log2 : ℤ) - q.den.log2 - 1) * (2 ^ (q.den.log2 + 1) : ℕ) := by gcongr
      _ = (2 ^ q.num.natAbs.log2 : ℕ) := by
          push_cast
          rw [← zpow_natCast, ← zpow_natCast, ← zpow_add₀ two_ne_zero]
          congr 1
          push_cast
          ring
      _ ≤ q.num.natAbs := hlow
  · exact not_lt.1 hlt

theorem abs_lt_zpow_binade (q : ℚ) : |q| < 2 ^ (binade q + 1) := by
  have hnum : (q.num.natAbs : ℚ) < (2 ^ (q.num.natAbs.log2 + 1) : ℕ) := Nat.cast_lt.2 Nat.lt_log2_self
  have hden : ((2 ^ q.den.log2 : ℕ) : ℚ) ≤ q.den := Nat.cast_le.2 (Nat.log2_self_le q.den_nz)
  simp only [binade, powTwo_eq_zpow, rat_abs_eq]
  split_ifs with hlt
  · rwa [sub_add_cancel]
  · rw [abs_eq_div, div_lt_iff₀ (Nat.cast_pos.2 q.pos)]
    calc (q.num.natAbs : ℚ) < (2 ^ (q.num.natAbs.log2 + 1) : ℕ) := hnum
      _ = 2 ^ ((q.num.natAbs.log2 : ℤ) - q.den.log2 + 1) * (2 ^ q.den.log2 : ℕ) := by
          push_cast
          rw [← zpow_natCast, ← zpow_natCast, ← zpow_add₀ two_ne_zero]
          congr 1
          push_cast
          ring
      _ ≤ 2 ^ ((q.num.natAbs.log2 : ℤ) - q.den.log2 + 1) * q.den := by gcongr

theorem le_zpow_binade (hp : p ≠ 0) (h : |p| ≤ |q|) (hne : binade p ≠ binade q) :
    |p| ≤ 2 ^ binade q := by
  have hlt : binade p < binade q + 1 := (zpow_lt_zpow_iff_right₀ one_lt_two).1
    (((zpow_binade_le hp).trans h).trans_lt (abs_lt_zpow_binade q))
  exact (abs_lt_zpow_binade p).le.trans (zpow_le_zpow_right₀ one_le_two (by omega))

theorem nearest_eq (h : q ≠ 0) :
    nearest q = roundEven (q / 2 ^ (binade q - 52)) * 2 ^ (binade q - 52) := by
  simp only [nearest, h, if_false, gridUnits, powTwo_eq_zpow]

theorem nearest_neg (q : ℚ) : nearest (-q) = -nearest q := by
  by_cases hq : q = 0
  · rw [hq, neg_zero, nearest_zero, neg_zero]
  · rw [nearest_eq hq, nearest_eq (neg_ne_zero.2 hq), binade_neg, neg_div, roundEven_neg, Int.cast_neg,
      neg_mul]

-- A number with no more binary digits than a double keeps.
def IsShort (p : ℚ) : Prop := ∃ n k : ℤ, |n| ≤ 2 ^ 53 ∧ p = n * 2 ^ k

namespace IsShort

theorem neg (h : IsShort p) : IsShort (-p) := by
  obtain ⟨n, k, hn, rfl⟩ := h
  exact ⟨-n, k, by rwa [abs_neg], by push_cast; ring⟩

theorem ofInt (h : |n| ≤ 2 ^ 53) : IsShort n := ⟨n, 0, h, by simp⟩

theorem zpow (k : ℤ) : IsShort (2 ^ k) := ⟨1, k, by norm_num, by simp⟩

-- It lies on the grid that `q` is rounded to, or else below the binade of `q`.
theorem grid_or_small (h : IsShort p) (g : ℤ) :
    (∃ m : ℤ, p = m * 2 ^ g) ∨ |p| ≤ 2 ^ 52 * 2 ^ g := by
  obtain ⟨n, k, hn, rfl⟩ := h
  rcases le_or_gt g k with hgk | hkg
  · refine .inl ⟨n * 2 ^ (k - g).toNat, ?_⟩
    push_cast
    rw [mul_assoc, ← zpow_natCast, ← zpow_add₀ two_ne_zero]
    congr 2
    omega
  · have hn' : |(n : ℚ)| ≤ 2 ^ 53 := by exact_mod_cast hn
    rw [abs_mul, abs_of_pos (by positivity : (0 : ℚ) < 2 ^ k)]
    refine .inr ?_
    calc |(n : ℚ)| * 2 ^ k ≤ 2 ^ 53 * 2 ^ (g - 1) := by
          gcongr
          · norm_num
          · omega
      _ = 2 ^ 52 * 2 ^ g := by
          rw [zpow_sub_one₀ two_ne_zero]
          ring

theorem exists_grid_between (h : IsShort p) (hq : q ≠ 0) (hle : q ≤ p) :
    ∃ m : ℤ, q ≤ m * 2 ^ (binade q - 52) ∧ (m : ℚ) * 2 ^ (binade q - 52) ≤ p := by
  have hlarge : 2 ^ 52 * 2 ^ (binade q - 52) ≤ |q| := by
    refine le_of_eq_of_le ?_ (zpow_binade_le hq)
    rw [zpow_sub₀ two_ne_zero]
    field_simp
  rcases h.grid_or_small (binade q - 52) with ⟨m, rfl⟩ | hsmall
  · exact ⟨m, hle, le_rfl⟩
  · -- `p` is at most as large as the ends of the binade of `q`, which are on the grid
    have hp := abs_le.1 hsmall
    rcases abs_cases q with ⟨habs, -⟩ | ⟨habs, -⟩
    · exact ⟨2 ^ 52, by push_cast; linarith, by push_cast; linarith⟩
    · exact ⟨-2 ^ 52, by push_cast; linarith, by push_cast; linarith⟩

-- Rounding to a double does not pass such a number.
theorem nearest_le (h : IsShort p) (hle : q ≤ p) : nearest q ≤ p := by
  by_cases hq : q = 0
  · rwa [hq, nearest_zero, ← hq]
  · obtain ⟨m, hqm, hmp⟩ := h.exists_grid_between hq hle
    have hunit : (0 : ℚ) < 2 ^ (binade q - 52) := by positivity
    have hround : (roundEven (q / 2 ^ (binade q - 52)) : ℚ) ≤ m := by
      exact_mod_cast roundEven_le ((div_le_iff₀ hunit).2 hqm)
    rw [nearest_eq hq]
    exact (mul_le_mul_of_nonneg_right hround hunit.le).trans hmp

theorem le_nearest (h : IsShort p) (hle : p ≤ q) : p ≤ nearest q := by
  by_cases hq : q = 0
  · rwa [hq, nearest_zero, ← hq]
  · obtain ⟨m, hqm, hmp⟩ := h.neg.exists_grid_between (neg_ne_zero.2 hq) (neg_le_neg hle)
    rw [binade_neg] at hqm hmp
    have hunit : (0 : ℚ) < 2 ^ (binade q - 52) := by positivity
    have hround : ((-m : ℤ) : ℚ) ≤ roundEven (q / 2 ^ (binade q - 52)) := by
      refine Int.cast_le.2 (le_roundEven ((le_div_iff₀ hunit).2 ?_))
      push_cast
      linarith
    rw [nearest_eq hq]
    refine le_trans ?_ (mul_le_mul_of_nonneg_right hround hunit.le)
    push_cast
    linarith

theorem abs_nearest_le (h : IsShort p) (hle : |q| ≤ p) : |nearest q| ≤ p :=
  abs_le.2 ⟨h.neg.le_nearest (abs_le.1 hle).1, h.nearest_le (abs_le.1 hle).2⟩

theorem nearest_eq_self (h : IsShort p) : nearest p = p :=
  le_antisymm (h.nearest_le le_rfl) (h.le_nearest le_rfl)

-- Between numbers of different binades there is zero, or the inner end of the binade that is farther out.
theorem exists_between (h : p ≤ q) (hne : p = 0 ∨ q = 0 ∨ binade p ≠ binade q) :
    ∃ x, IsShort x ∧ p ≤ x ∧ x ≤ q := by
  rcases lt_or_ge 0 p with hp | hp
  · have hq := hp.trans_le h
    have hne := (hne.resolve_left hp.ne').resolve_left hq.ne'
    have hlow := le_zpow_binade hp.ne' (abs_le_abs_of_nonneg hp.le h) hne
    have hhigh := zpow_binade_le hq.ne'
    rw [abs_of_pos hp] at hlow
    rw [abs_of_pos hq] at hhigh
    exact ⟨_, zpow _, hlow, hhigh⟩
  rcases lt_or_ge q 0 with hq | hq
  · have hp := h.trans_lt hq
    have hne := (hne.resolve_left hp.ne).resolve_left hq.ne
    have hlow := le_zpow_binade hq.ne (abs_le_abs_of_nonpos hq.le h) hne.symm
    have hhigh := zpow_binade_le hp.ne
    rw [abs_of_neg hq] at hlow
    rw [abs_of_neg hp] at hhigh
    exact ⟨_, (zpow _).neg, le_neg.1 hhigh, neg_le.1 hlow⟩
  · exact ⟨0, by exact_mod_cast ofInt (n := 0) (by norm_num), hp, hq⟩

end IsShort

-- Numbers of one binade are rounded to one grid; numbers of different binades stay on either side of what
-- is between them.
theorem nearest_mono (h : p ≤ q) : nearest p ≤ nearest q := by
  by_cases hne : p = 0 ∨ q = 0 ∨ binade p ≠ binade q
  · obtain ⟨x, hx, hpx, hxq⟩ := IsShort.exists_between h hne
    exact (hx.nearest_le hpx).trans (hx.le_nearest hxq)
  · push Not at hne
    obtain ⟨hp, hq, heq⟩ := hne
    have hunit : (0 : ℚ) < 2 ^ (binade q - 52) := by positivity
    rw [nearest_eq hp, nearest_eq hq, heq]
    refine mul_le_mul_of_nonneg_right ?_ hunit.le
    exact_mod_cast roundEven_mono (div_le_div_of_nonneg_right h hunit.le)

-- Doubles below `2 ^ 53 * 2 ^ k` are no farther apart than `2 ^ k`. So what is not up to the middle between
-- two multiples of it is not rounded past the middle, which may be a double itself or not.
theorem nearest_le_middle (hn : 0 < n) (hlarge : q < 2 ^ 53 * 2 ^ k) (h : q < (n - 1 / 2) * 2 ^ k) :
    nearest q ≤ (n - 1 / 2) * 2 ^ k := by
  rcases le_or_gt q 0 with hq | hq
  · have hn : (1 : ℚ) ≤ n := by exact_mod_cast hn
    have hunit : (0 : ℚ) < 2 ^ k := by positivity
    exact (nearest_mono hq).trans (nearest_zero.trans_le (mul_nonneg (by linarith) hunit.le))
  obtain ⟨g, hg⟩ : ∃ g, g = binade q - 52 := ⟨_, rfl⟩
  have hgk : g ≤ k := by
    have hlow := zpow_binade_le hq.ne'
    rw [abs_of_pos hq] at hlow
    have hlt : (2 : ℚ) ^ binade q < 2 ^ (53 + k) := by
      rw [zpow_add₀ two_ne_zero]
      exact_mod_cast hlow.trans_lt hlarge
    have := (zpow_lt_zpow_iff_right₀ one_lt_two).1 hlt
    omega
  have hunit : (0 : ℚ) < 2 ^ g := by positivity
  rw [nearest_eq hq.ne', ← hg]
  rcases hgk.eq_or_lt with rfl | hlt
  · have hround : (roundEven (q / 2 ^ g) : ℚ) ≤ n - 1 := by
      exact_mod_cast Int.le_sub_one_of_lt (roundEven_lt ((div_lt_iff₀ hunit).2 h))
    exact mul_le_mul_of_nonneg_right (by linarith) hunit.le
  · -- the middle lies on a finer grid
    have hmiddle : ((n : ℚ) - 1 / 2) * 2 ^ k = ((2 * n - 1) * 2 ^ (k - 1 - g).toNat : ℤ) * 2 ^ g := by
      have hexp : ((k - 1 - g).toNat : ℤ) + g = k - 1 := by omega
      push_cast
      rw [mul_assoc, ← zpow_natCast, ← zpow_add₀ two_ne_zero, hexp, zpow_sub_one₀ two_ne_zero]
      ring
    rw [hmiddle] at h ⊢
    refine mul_le_mul_of_nonneg_right ?_ hunit.le
    exact_mod_cast roundEven_le ((div_le_iff₀ hunit).2 h.le)

end Binary

end CrewRoster
