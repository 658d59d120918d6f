import Mathlib

set_option autoImplicit false

namespace Serial

-- Sequence numbers of n bits compare by the sign of their difference. Two numbers are ordered
-- as their distances from a common base are, as long as those lie less than half the circle apart.
variable {n : Nat}

def lt (x y : BitVec n) : Prop := (x - y).toInt < 0

def le (x y : BitVec n) : Prop := (x - y).toInt ≤ 0

instance (x y : BitVec n) : Decidable (lt x y) := inferInstanceAs (Decidable ((x - y).toInt < 0))

instance (x y : BitVec n) : Decidable (le x y) := inferInstanceAs (Decidable ((x - y).toInt ≤ 0))

-- The number i steps away from base.
def place (base : BitVec n) (i : Int) : BitVec n := base + BitVec.ofInt n i

@[simp] theorem place_zero (base : BitVec n) : place base 0 = base := by
  simp [place]

theorem place_add (base : BitVec n) (i j : Int) : place base i + BitVec.ofInt n j = place base (i + j) := by
  rw [place, place, BitVec.ofInt_add, BitVec.add_assoc]

theorem place_place (base : BitVec n) (i j : Int) : place (place base i) j = place base (i + j) :=
  place_add base i j

theorem place_sub (base : BitVec n) (i j : Int) : place base i - place base j = BitVec.ofInt n (i - j) := by
  rw [place, place, add_sub_add_left_eq_sub, Int.sub_eq_add_neg, BitVec.ofInt_add, BitVec.ofInt_neg,
    BitVec.sub_eq_add_neg]

theorem place_offset (base x : BitVec n) : place base (x - base).toInt = x := by
  rw [place, BitVec.ofInt_toInt, BitVec.add_comm, BitVec.sub_add_cancel]

-- What the difference reads as, when it fits the signed range.
theorem place_sub_toInt (base : BitVec n) (i j : Int) (low : -(2 ^ n : Int) ≤ (i - j) * 2)
    (high : (i - j) * 2 < 2 ^ n) : (place base i - place base j).toInt = i - j := by
  rw [place_sub, BitVec.toInt_ofInt]
  apply Int.bmod_eq_of_le_mul_two
  · exact_mod_cast low
  · exact_mod_cast high

theorem lt_place (base : BitVec n) (i j : Int) (low : -(2 ^ n : Int) ≤ (i - j) * 2)
    (high : (i - j) * 2 < 2 ^ n) : lt (place base i) (place base j) ↔ i < j := by
  rw [lt, place_sub_toInt base i j low high]
  omega

theorem le_place (base : BitVec n) (i j : Int) (low : -(2 ^ n : Int) ≤ (i - j) * 2)
    (high : (i - j) * 2 < 2 ^ n) : le (place base i) (place base j) ↔ i ≤ j := by
  rw [le, place_sub_toInt base i j low high]
  omega

theorem le_refl (x : BitVec n) : le x x := by
  simp [le]

theorem lt_irrefl (x : BitVec n) : ¬ lt x x := by
  simp [lt]

theorem not_lt_self_of_eq (x y : BitVec n) (same : x = y) : ¬ lt x y := by
  rw [same]
  exact lt_irrefl y

-- The one distance at which both x < y and y < x read true does not count as equality.
theorem eq_of_le_of_not_lt (x y : BitVec n) (below : le x y) (notBelow : ¬ lt x y) : x = y := by
  have zero : (x - y).toInt = 0 := by
    unfold le at below
    unfold lt at notBelow
    omega
  have diff : x - y = 0#n := BitVec.eq_of_toInt_eq (by rw [zero, BitVec.toInt_zero])
  rw [← BitVec.sub_add_cancel x y, diff, BitVec.zero_add]

-- A number that reads after x and before z lies between them, once x itself is before z.
theorem steps_of_le (base x : BitVec n) (i : Int) (after : le (place base i) x) :
    ∃ j, i ≤ j ∧ (j - i) * 2 ≤ 2 ^ n ∧ x = place base j := by
  have least := BitVec.le_two_mul_toInt (x := place base i - x)
  refine ⟨i - (place base i - x).toInt, ?_, ?_, ?_⟩
  · unfold le at after
    omega
  · have cast : ((2 ^ n : Nat) : Int) = 2 ^ n := by norm_cast
    omega
  · have back : x = place base i - (place base i - x) := by abel
    rw [Int.sub_eq_add_neg, ← place_add, BitVec.ofInt_neg, BitVec.ofInt_toInt, ← sub_eq_add_neg]
    exact back

theorem between_le_le (base y : BitVec n) (i k : Int) (room : i < k) (near : (k - i) * 2 < 2 ^ n)
    (after : le (place base i) y) (before : le y (place base k)) : ∃ j, i ≤ j ∧ j ≤ k ∧ y = place base j := by
  obtain ⟨j, lower, span, rfl⟩ := steps_of_le base y i after
  refine ⟨j, lower, ?_, rfl⟩
  exact (le_place base j k (by omega) (by omega)).mp before

theorem lt_of_place_lt (base : BitVec n) (i j : Int) (lower : i ≤ j)
    (after : lt (place base i) (place base j)) : i < j := by
  by_contra same
  have equal : i = j := by omega
  rw [equal] at after
  exact lt_irrefl _ after

theorem le_of_lt (x y : BitVec n) (below : lt x y) : le x y := by
  unfold lt at below
  unfold le
  omega

theorem between_lt_lt (base y : BitVec n) (i k : Int) (room : i < k) (near : (k - i) * 2 < 2 ^ n)
    (after : lt (place base i) y) (before : lt y (place base k)) : ∃ j, i < j ∧ j < k ∧ y = place base j := by
  obtain ⟨j, lower, span, rfl⟩ := steps_of_le base y i (le_of_lt _ _ after)
  have upper := (lt_place base j k (by omega) (by omega)).mp before
  exact ⟨j, lt_of_place_lt base i j lower after, upper, rfl⟩

end Serial
