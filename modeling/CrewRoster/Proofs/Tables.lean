import CrewRoster.Proofs.Result
import CrewRoster.Proofs.Rounding
import CrewRoster.Report.Frames

namespace CrewRoster

open Result (Yields)

namespace Binary64

theorem isFinite_withSign {n : ℕ} (negative : Bool) (h : n < (exponentSpan - 1) * fractionSpan) :
    (withSign negative n).isFinite = true := by
  have h52 : fractionSpan = 4503599627370496 := rfl
  have h11 : exponentSpan = 2048 := rfl
  have h63 : signBit = 9223372036854775808 := rfl
  rw [h11, h52] at h
  simp only [isFinite, exponentField, withSign, UInt64.toNat_ofNat', h52, h11, h63, decide_eq_true_eq]
  split <;> omega

-- The double nearest to a number is finite long before the numbers end that have one.
theorem isFinite_ofRat {q : ℚ} (h : |q| ≤ 2 ^ 1000) : (ofRat q).isFinite = true := by
  simp only [ofRat, ofMagnitude, rat_abs_eq, abs_eq_zero]
  split_ifs with hq hn
  case pos => exact isFinite_withSign _ (by decide)
  case pos => exact isFinite_withSign _ hn
  case neg =>
    refine absurd ?_ hn
    have hbinade : binade |q| ≤ 1000 := by
      have hle : (2 : ℚ) ^ binade |q| ≤ 2 ^ (1000 : ℤ) := by
        refine (zpow_binade_le (abs_ne_zero.2 hq)).trans ?_
        rw [abs_abs]
        exact h
      exact (zpow_le_zpow_iff_right₀ one_lt_two).1 hle
    have hk : max (binade |q|) (-1022) ≤ 1000 := max_le hbinade (by norm_num)
    have hle : binade |q| ≤ max (binade |q|) (-1022) := le_max_left _ _
    generalize max (binade |q|) (-1022) = k at hk hle ⊢
    have hunits : gridUnits |q| (k - 52) ≤ 2 ^ 53 := by
      refine roundEven_le ?_
      rw [powTwo_eq_zpow, div_le_iff₀ (by positivity)]
      have hlt := abs_lt_zpow_binade |q|
      rw [abs_abs] at hlt
      calc |q| ≤ 2 ^ (binade |q| + 1) := hlt.le
        _ ≤ 2 ^ (53 + (k - 52)) := zpow_le_zpow_right₀ one_le_two (by omega)
        _ = ((2 ^ 53 : ℤ) : ℚ) * 2 ^ (k - 52) := by
            rw [zpow_add₀ two_ne_zero]
            norm_num
    have hspan : (exponentSpan - 1) * fractionSpan = 2047 * 4503599627370496 := rfl
    have h52 : fractionSpan = 4503599627370496 := rfl
    rw [hspan, h52]
    omega

end Binary64

-- Whole numbers up to here, of either sign, are near a double.
def Document.wholeLimit : ℤ := 2 ^ 1000

theorem Document.one_le_wholeLimit : 1 ≤ wholeLimit := one_le_pow₀ one_le_two

theorem Document.realOfWhole_yields {n : ℤ} (h : |n| ≤ wholeLimit) :
    Yields (realOfWhole n) fun _ => True := by
  have hq : |(n : ℚ)| ≤ 2 ^ 1000 := by
    rw [← Int.cast_abs]
    refine (Int.cast_le.2 h).trans_eq ?_
    rw [wholeLimit, Int.cast_pow, Int.cast_ofNat]
  rw [realOfWhole, if_pos (Binary64.isFinite_ofRat hq)]
  exact .ok trivial

-- A value of a table is no whole number that is far from all doubles.
def TableValue.Fits : TableValue → Prop
  | .label (.whole n) => |n| ≤ Document.wholeLimit
  | _ => True

namespace Column

variable {l : Label} {ls : List Label} {v : TableValue} {vs : List TableValue}

def IsNumeric : Label → Prop
  | .text _ | .array _ | .object _ => False
  | _ => True

theorem asReal_yields (hl : (TableValue.label l).Fits) (hn : IsNumeric l) :
    Yields (asReal l) fun _ => True := by
  rw [asReal]
  split
  case isTrue => exact .ok trivial
  case isFalse hnull =>
    refine Yields.bind (P := fun _ => True) ?_ fun _ _ => .ok trivial
    cases l
    case null => simp at hnull
    case flag b =>
      refine Document.realOfWhole_yields ((?_ : |if b then (1 : ℤ) else 0| ≤ 1).trans
        Document.one_le_wholeLimit)
      cases b <;> decide
    case whole n => exact Document.realOfWhole_yields hl
    case real x => exact .ok trivial
    all_goals exact absurd hn id

-- A column is looked through to its end if it has numbers only.
theorem scan_yields (seen : Seen) (h : ∀ l ∈ ls, (TableValue.label l).Fits) :
    Yields (scan seen ls) fun found => found.isSome → ∀ l ∈ ls, IsNumeric l := by
  induction ls generalizing seen with
  | nil => exact .ok fun _ l hl => absurd hl List.not_mem_nil
  | cons l ls ih =>
    obtain ⟨hl, hls⟩ := List.forall_mem_cons.1 h
    have hnext (hn : IsNumeric l) (seen' : Seen) :
        Yields (scan seen' ls) fun found => found.isSome → ∀ m ∈ l :: ls, IsNumeric m :=
      (ih seen' hls).imp fun found hfound hs => List.forall_mem_cons.2 ⟨hn, hfound hs⟩
    cases l
    case whole n =>
      refine (Document.realOfWhole_yields hl).bind fun _ _ => ?_
      split
      case h_1 => exact .ok (by simp)
      case h_2 seen' _ => exact hnext trivial seen'
    case null => exact hnext trivial _
    case flag => exact hnext trivial _
    case real => exact hnext trivial _
    all_goals exact .ok (by simp)

theorem mem_of_mapM_label? (h : vs.mapM TableValue.label? = some ls) (hl : l ∈ ls) :
    ∃ v ∈ vs, v.label? = some l := by
  induction vs generalizing ls with
  | nil =>
    obtain rfl : [] = ls := Option.some.inj h
    cases hl
  | cons v vs ih =>
    rw [List.mapM_cons, Option.bind_eq_bind, Option.bind_eq_some_iff] at h
    obtain ⟨m, hm, h⟩ := h
    obtain ⟨ms, hms, h⟩ := Option.bind_eq_some_iff.1 h
    obtain rfl := Option.some.inj h
    rcases List.mem_cons.1 hl with rfl | hl
    · exact ⟨v, List.mem_cons_self, hm⟩
    · obtain ⟨w, hw, he⟩ := ih hms hl
      exact ⟨w, List.mem_cons_of_mem _ hw, he⟩

theorem fits_of_label? (hv : v.Fits) (h : v.label? = some l) : (TableValue.label l).Fits := by
  cases v <;> cases h
  case missing => trivial
  case label => exact hv

theorem settle_yields (h : ∀ v ∈ vs, v.Fits) : Yields (settle vs) fun _ => True := by
  rw [settle]
  split
  case h_1 ls hls =>
    have hlabels : ∀ l ∈ ls, (TableValue.label l).Fits := fun l hl => by
      obtain ⟨v, hv, he⟩ := mem_of_mapM_label? hls hl
      exact fits_of_label? (h v hv) he
    refine (scan_yields .nothing hlabels).bind fun found hfound => ?_
    cases found with
    | none => exact .ok trivial
    | some seen =>
      dsimp only
      split
      case isTrue =>
        exact (Yields.mapM fun l hl => asReal_yields (hlabels l hl) (hfound rfl l hl)).imp
          fun _ _ => trivial
      case isFalse => exact .ok trivial
  case h_2 => exact .ok trivial

end Column

namespace Table

theorem mem_transpose {α : Type} {width : ℕ} {rows : List (List α)} {column : List α} {a : α}
    (hc : column ∈ transpose width rows) (ha : a ∈ column) : ∃ row ∈ rows, a ∈ row := by
  induction rows generalizing column with
  | nil =>
    obtain rfl := List.eq_of_mem_replicate hc
    cases ha
  | cons row rows ih =>
    rw [transpose, List.foldr_cons, ← transpose] at hc
    obtain ⟨i, hi, rfl⟩ := List.mem_iff_getElem.1 hc
    rw [List.getElem_zipWith] at ha
    rcases List.mem_cons.1 ha with rfl | ha
    · exact ⟨row, List.mem_cons_self, List.getElem_mem _⟩
    · obtain ⟨row', hr, ha⟩ := ih (List.getElem_mem _) ha
      exact ⟨row', List.mem_cons_of_mem _ hr, ha⟩

-- Rows make a table if their whole numbers are near doubles.
theorem ofRows_yields {names : List String} {rows : List (List TableValue)}
    (h : ∀ row ∈ rows, ∀ v ∈ row, v.Fits) : Yields (ofRows names rows) fun _ => True := by
  refine (Yields.mapM (Q := fun _ => True) fun column hc => Column.settle_yields fun v hv => ?_).bind
    fun _ _ => .ok trivial
  obtain ⟨row, hr, hv⟩ := mem_transpose hc hv
  exact h row hr v hv

end Table

end CrewRoster
