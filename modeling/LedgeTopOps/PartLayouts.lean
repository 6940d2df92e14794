import Mathlib.Data.List.Range
import Mathlib.Algebra.Order.Ring.Nat

namespace LedgeTopOps.PartLayouts

-- A whole cut into parts of one size between two limits, what is left over fitting into one more part together with
-- something extra.
structure Layout (smallest largest whole extra count size : Nat) : Prop where
  some_ : 1 ≤ count
  large : smallest ≤ size
  small : size ≤ largest
  inside : count * size ≤ whole
  rest : whole - count * size + extra ≤ size

def fewest (largest whole : Nat) : Nat := (whole + largest - 1) / largest

def Evenly (whole extra count : Nat) : Prop := whole % count + extra ≤ whole / count

instance : Decidable (Evenly whole extra count) := inferInstanceAs (Decidable (_ ≤ _))

theorem fewest_le (positive : 0 < largest) : fewest largest whole ≤ count ↔ whole ≤ count * largest := by
  have shifted : (count + 1) * largest = count * largest + largest := Nat.succ_mul _ _
  rw [fewest,←Nat.lt_succ_iff,Nat.div_lt_iff_lt_mul positive,Nat.succ_eq_add_one,shifted]
  omega

theorem Evenly.one (even : Evenly whole extra count) (some_ : 0 < extra) : 1 ≤ count := by
  rcases Nat.eq_zero_or_pos count with rfl | more
  · unfold Evenly at even
    omega
  exact more

theorem Evenly.layout (even : Evenly whole extra count) (one : 1 ≤ count) (enough : whole ≤ count * largest)
    (few : count ≤ whole / smallest) (positive : 0 < smallest) : Layout smallest largest whole extra count (whole / count) := by
  have cut := Nat.div_add_mod whole count
  refine ⟨one,?_,?_,Nat.mul_div_le whole count,?_⟩
  · rw [Nat.le_div_iff_mul_le one,Nat.mul_comm]
    exact (Nat.le_div_iff_mul_le positive).mp few
  · exact Nat.div_le_of_le_mul enough
  have left : whole - count * (whole / count) = whole % count := by omega
  rw [left]
  exact even

theorem Layout.evenly (layout : Layout smallest largest whole extra count size) (positive : 0 < smallest) :
    count ≤ whole / smallest ∧ Evenly whole extra count := by
  have one := layout.some_
  have below : size ≤ whole / count := by
    rw [Nat.le_div_iff_mul_le one,Nat.mul_comm]
    exact layout.inside
  refine ⟨?_,?_⟩
  · rw [Nat.le_div_iff_mul_le positive]
    exact (Nat.mul_le_mul_left count layout.large).trans layout.inside
  have more : count * size ≤ count * (whole / count) := Nat.mul_le_mul_left count below
  have cut := Nat.div_add_mod whole count
  have rest := layout.rest
  unfold Evenly
  omega

theorem Layout.fewer (layout : Layout smallest largest whole extra count size) (positive : 0 < largest)
    (less : count < fewest largest whole) : largest < whole ∧ whole + extra ≤ fewest largest whole * largest := by
  have short : count * largest < whole := by
    rw [←Nat.not_le,←fewest_le positive,Nat.not_le]
    exact less
  have one : 1 * largest ≤ count * largest := Nat.mul_le_mul_right largest layout.some_
  have next : (count + 1) * largest ≤ fewest largest whole * largest := Nat.mul_le_mul_right largest less
  have sized : count * size ≤ count * largest := Nat.mul_le_mul_left count layout.small
  have split : (count + 1) * largest = count * largest + largest := Nat.succ_mul _ _
  have inside := layout.inside
  have rest := layout.rest
  have small := layout.small
  refine ⟨by omega,?_⟩
  omega

theorem layout_largest (positive : 0 < largest) (ordered : smallest ≤ largest) (more : largest < whole)
    (fits : whole + extra ≤ fewest largest whole * largest) : Layout smallest largest whole extra (fewest largest whole - 1) largest := by
  have two : ¬fewest largest whole ≤ 1 := by
    rw [fewest_le positive]
    omega
  have below : ¬whole ≤ (fewest largest whole - 1) * largest := by
    rw [←fewest_le positive]
    omega
  have split : fewest largest whole * largest = (fewest largest whole - 1) * largest + largest := by
    rw [←Nat.succ_mul]
    congr 1
    omega
  refine ⟨by omega,ordered,Nat.le_refl _,by omega,?_⟩
  omega

theorem layout_iff (positive : 0 < smallest) (ordered : smallest ≤ largest) (some_ : 0 < extra) :
    (∃ count size, Layout smallest largest whole extra count size) ↔
      (∃ count, fewest largest whole ≤ count ∧ count ≤ whole / smallest ∧ Evenly whole extra count) ∨
        largest < whole ∧ whole + extra ≤ fewest largest whole * largest := by
  have large : 0 < largest := by omega
  constructor
  · rintro ⟨count,size,layout⟩
    by_cases enough : fewest largest whole ≤ count
    · exact .inl ⟨count,enough,layout.evenly positive⟩
    exact .inr (layout.fewer large (by omega))
  rintro (⟨count,enough,few,even⟩ | ⟨more,fits⟩)
  · rw [fewest_le large] at enough
    exact ⟨count,_,even.layout (even.one some_) enough few positive⟩
  · exact ⟨_,_,layout_largest large ordered more fits⟩
end LedgeTopOps.PartLayouts
