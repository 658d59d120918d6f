import Mathlib

set_option autoImplicit false

namespace Ones

-- One's complement sums of w-bit words: the carry out of the top is added back in at the bottom.
def onesAdd {w : Nat} (a b : BitVec w) : BitVec w :=
  if a.toNat + b.toNat < 2 ^ w then a + b else a + b + 1

def onesSum {w : Nat} (values : List (BitVec w)) : BitVec w := values.foldl onesAdd 0#w

def total {w : Nat} (values : List (BitVec w)) : Nat := (values.map BitVec.toNat).sum

-- Two numbers with the same one's complement value. Zero is told apart from the all-ones word,
-- its other spelling, since no end-around carry leads back from the one to the other.
def Stands (w a b : Nat) : Prop := a ≡ b [MOD 2 ^ w - 1] ∧ (a = 0 ↔ b = 0)

theorem stands_refl (w a : Nat) : Stands w a a := ⟨Nat.ModEq.refl a, Iff.rfl⟩

theorem stands_symm {w a b : Nat} (h : Stands w a b) : Stands w b a := ⟨h.1.symm, h.2.symm⟩

theorem stands_trans {w a b c : Nat} (first : Stands w a b) (second : Stands w b c) : Stands w a c :=
  ⟨first.1.trans second.1, first.2.trans second.2⟩

theorem stands_add {w a b c d : Nat} (first : Stands w a b) (second : Stands w c d) : Stands w (a + c) (b + d) := by
  refine ⟨first.1.add second.1, ?_⟩
  rw [Nat.add_eq_zero_iff, Nat.add_eq_zero_iff, first.2, second.2]

theorem stands_add_right {w a b : Nat} (h : Stands w a b) (c : Nat) : Stands w (a + c) (b + c) :=
  stands_add h (stands_refl w c)

-- A carry out of the top of k words counts one.
theorem stands_carry (w k a : Nat) : Stands w (2 ^ (w * k) * a) a := by
  have one : 2 ^ w ≡ 1 [MOD 2 ^ w - 1] := by
    have positive : 0 < 2 ^ w := Nat.two_pow_pos w
    have split : 2 ^ w = 1 + (2 ^ w - 1) := by omega
    calc 2 ^ w = 1 + (2 ^ w - 1) := split
      _ ≡ 1 [MOD 2 ^ w - 1] := Nat.add_modEq_right
  constructor
  · have power : (2 ^ w) ^ k ≡ 1 ^ k [MOD 2 ^ w - 1] := one.pow k
    rw [one_pow, ← pow_mul] at power
    simpa using power.mul_right a
  · simp

theorem stands_full (w a : Nat) (some : a ≠ 0) : Stands w (a + (2 ^ w - 1)) a :=
  ⟨Nat.add_modEq_right, by omega⟩

theorem stands_unique {w a b : Nat} (h : Stands w a b) (left : a < 2 ^ w) (right : b < 2 ^ w) : a = b := by
  by_cases zero : a = 0
  · rw [zero, h.2.mp zero]
  · have other : b ≠ 0 := fun none => zero (h.2.mpr none)
    have shifted : (a - 1) + 1 ≡ (b - 1) + 1 [MOD 2 ^ w - 1] := by
      rw [Nat.sub_add_cancel (by omega), Nat.sub_add_cancel (by omega)]
      exact h.1
    have same : a - 1 = b - 1 := (shifted.add_right_cancel' 1).eq_of_lt_of_lt (by omega) (by omega)
    omega

theorem ones_add_stands {w : Nat} (a b : BitVec w) : Stands w (onesAdd a b).toNat (a.toNat + b.toNat) := by
  unfold onesAdd
  split
  next fits =>
      rw [BitVec.toNat_add, Nat.mod_eq_of_lt fits]
      exact stands_refl w _
  next wraps =>
      have left := a.isLt
      have right := b.isLt
      have value : (a + b + 1).toNat = 1 + (a.toNat + b.toNat - 2 ^ w) := by
        have step : (a.toNat + b.toNat) % 2 ^ w = a.toNat + b.toNat - 2 ^ w := by
          rw [Nat.mod_eq_sub_mod (by omega), Nat.mod_eq_of_lt (by omega)]
        by_cases flat : w = 0
        · subst flat
          omega
        · have one : (1 : BitVec w).toNat = 1 := by
            simp [BitVec.toNat_one (Nat.pos_of_ne_zero flat)]
          rw [BitVec.toNat_add, BitVec.toNat_add, step, one, Nat.mod_eq_of_lt (by omega)]
          omega
      have carry := stands_carry w 1 1
      rw [mul_one, mul_one] at carry
      have whole : a.toNat + b.toNat = 2 ^ w + (a.toNat + b.toNat - 2 ^ w) := by omega
      rw [value]
      exact stands_trans (stands_add_right (stands_symm carry) _) (whole ▸ stands_refl w _)

theorem fold_stands {w : Nat} (values : List (BitVec w)) (start : BitVec w) :
    Stands w (values.foldl onesAdd start).toNat (start.toNat + total values) := by
  induction values generalizing start with
  | nil => exact stands_refl w _
  | cons value values ih =>
      have first := stands_add_right (ones_add_stands start value) (total values)
      have step := stands_trans (ih (onesAdd start value)) first
      rwa [Nat.add_assoc] at step

theorem ones_sum_stands {w : Nat} (values : List (BitVec w)) : Stands w (onesSum values).toNat (total values) := by
  have h := fold_stands values 0#w
  rwa [BitVec.toNat_ofNat, Nat.zero_mod, Nat.zero_add] at h

theorem ones_sum_eq {w : Nat} (values : List (BitVec w)) (sum : BitVec w) (h : Stands w sum.toNat (total values)) :
    sum = onesSum values :=
  BitVec.eq_of_toNat_eq (stands_unique (stands_trans h (stands_symm (ones_sum_stands values))) sum.isLt (onesSum values).isLt)

@[simp] theorem total_nil {w : Nat} : total ([] : List (BitVec w)) = 0 := rfl

@[simp] theorem total_cons {w : Nat} (value : BitVec w) (values : List (BitVec w)) :
    total (value :: values) = value.toNat + total values := by
  simp [total]

@[simp] theorem total_append {w : Nat} (front back : List (BitVec w)) : total (front ++ back) = total front + total back := by
  simp [total]

-- The complement of a sum, put where the summed words had a zero, makes the sum all ones.
theorem ones_sum_filled {w : Nat} (before after : List (BitVec w))
    (filled : total after = total before + (~~~(onesSum before)).toNat) : onesSum after = BitVec.allOnes w := by
  symm
  apply ones_sum_eq
  have bound := (onesSum before).isLt
  have full : (BitVec.allOnes w).toNat = (onesSum before).toNat + (~~~(onesSum before)).toNat := by
    rw [BitVec.toNat_allOnes, BitVec.toNat_not]
    omega
  rw [filled, full]
  exact stands_add_right (ones_sum_stands before) _

-- Where that complement is zero, all ones does as well.
theorem ones_sum_filled_full {w : Nat} (before after : List (BitVec w)) (positive : 0 < w)
    (filled : total after = total before + (2 ^ w - 1)) (zero : ~~~(onesSum before) = 0#w) : onesSum after = BitVec.allOnes w := by
  have all : onesSum before = BitVec.allOnes w := by
    rw [← BitVec.not_not (b := onesSum before), zero, BitVec.not_zero]
  have stands := ones_sum_stands before
  have some : total before ≠ 0 := by
    intro none
    have nothing := stands.2.mpr none
    rw [all, BitVec.toNat_allOnes] at nothing
    have : 2 ^ 1 ≤ 2 ^ w := Nat.pow_le_pow_right (by omega) positive
    omega
  rw [← all]
  symm
  apply ones_sum_eq
  rw [filled]
  exact stands_trans stands (stands_symm (stands_full w _ some))

end Ones
