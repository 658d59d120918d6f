import Mathlib

set_option autoImplicit false

namespace M68k

-- A data register and the extend flag, and the instructions that add into the register.
structure Acc where
  d : BitVec 32
  x : Bool
deriving DecidableEq, Repr

def lo (d : BitVec 32) : BitVec 16 := d.extractLsb' 0 16
def hi (d : BitVec 32) : BitVec 16 := d.extractLsb' 16 16

def addxl (source : BitVec 32) (a : Acc) : Acc :=
  ⟨a.d + source + BitVec.ofNat 32 a.x.toNat, decide (2 ^ 32 ≤ a.d.toNat + source.toNat + a.x.toNat)⟩

def addl (source : BitVec 32) (a : Acc) : Acc := addxl source { a with x := false }

-- The word forms leave the high half of the register alone.
def addxw (source : BitVec 16) (a : Acc) : Acc :=
  ⟨hi a.d ++ (lo a.d + source + BitVec.ofNat 16 a.x.toNat),
    decide (2 ^ 16 ≤ (lo a.d).toNat + source.toNat + a.x.toNat)⟩

def addw (source : BitVec 16) (a : Acc) : Acc := addxw source { a with x := false }

def swap (d : BitVec 32) : BitVec 32 := lo d ++ hi d
def clrw (d : BitVec 32) : BitVec 32 := hi d ++ (0 : BitVec 16)
def mvzw (source : BitVec 16) : BitVec 32 := (0 : BitVec 16) ++ source

theorem append_number {m n : Nat} (high : BitVec m) (low : BitVec n) :
    (high ++ low).toNat = high.toNat * 2 ^ n + low.toNat := by
  rw [BitVec.toNat_append, Nat.shiftLeft_eq, mul_comm, Nat.two_pow_add_eq_or_of_lt low.isLt]

@[simp] theorem lo_number (d : BitVec 32) : (lo d).toNat = d.toNat % 2 ^ 16 := by
  simp [lo]

@[simp] theorem hi_number (d : BitVec 32) : (hi d).toNat = d.toNat / 2 ^ 16 := by
  have bound := d.isLt
  simp only [hi, BitVec.extractLsb'_toNat, Nat.shiftRight_eq_div_pow]
  omega

theorem halves (d : BitVec 32) : d.toNat = (hi d).toNat * 2 ^ 16 + (lo d).toNat := by
  rw [hi_number, lo_number]
  omega

@[simp] theorem lo_append (high low : BitVec 16) : lo (high ++ low) = low := by
  apply BitVec.eq_of_toNat_eq
  have bound := low.isLt
  rw [lo_number, append_number]
  omega

@[simp] theorem hi_append (high low : BitVec 16) : hi (high ++ low) = high := by
  apply BitVec.eq_of_toNat_eq
  have bound := low.isLt
  rw [hi_number, append_number]
  omega

theorem swap_clrw (d : BitVec 32) : swap (clrw d) = mvzw (hi d) := by
  simp only [swap, clrw, mvzw, lo_append, hi_append]

@[simp] theorem mvzw_number (source : BitVec 16) : (mvzw source).toNat = source.toNat := by
  rw [mvzw, append_number]
  simp

theorem carry_lt (x : Bool) : x.toNat < 2 := by
  cases x <;> decide

-- The register and the flag after an addition are together the sum as a number.
theorem addx_number {w : Nat} (width : 2 ≤ w) (d source : BitVec w) (x : Bool) :
    (d + source + BitVec.ofNat w x.toNat).toNat
      + 2 ^ w * (decide (2 ^ w ≤ d.toNat + source.toNat + x.toNat)).toNat = d.toNat + source.toNat + x.toNat := by
  have left := d.isLt
  have right := source.isLt
  have flag := carry_lt x
  have room : 2 ^ 2 ≤ 2 ^ w := Nat.pow_le_pow_right (by omega) width
  rw [BitVec.toNat_add, BitVec.toNat_add, BitVec.toNat_ofNat, Nat.add_mod_mod, Nat.mod_add_mod]
  by_cases wraps : 2 ^ w ≤ d.toNat + source.toNat + x.toNat
  · rw [decide_eq_true wraps, Nat.mod_eq_sub_mod wraps, Nat.mod_eq_of_lt (by omega), Bool.toNat_true]
    omega
  · rw [decide_eq_false wraps, Nat.mod_eq_of_lt (by omega), Bool.toNat_false]
    omega

theorem addxl_number (source : BitVec 32) (a : Acc) :
    (addxl source a).d.toNat + 2 ^ 32 * (addxl source a).x.toNat = a.d.toNat + source.toNat + a.x.toNat :=
  addx_number (by decide) a.d source a.x

theorem addxw_number (source : BitVec 16) (a : Acc) :
    (addxw source a).d.toNat + 2 ^ 16 * (addxw source a).x.toNat = a.d.toNat + source.toNat + a.x.toNat := by
  have sum := addx_number (by decide) (lo a.d) source a.x
  have whole := halves a.d
  simp only [addxw, append_number]
  omega

-- What the low half alone does in the word forms.
theorem addxw_low (source : BitVec 16) (a : Acc) :
    (lo (addxw source a).d).toNat + 2 ^ 16 * (addxw source a).x.toNat = (lo a.d).toNat + source.toNat + a.x.toNat := by
  have sum := addx_number (by decide) (lo a.d) source a.x
  simpa only [addxw, lo_append] using sum

theorem addw_low (source : BitVec 16) (a : Acc) :
    (lo (addw source a).d).toNat + 2 ^ 16 * (addw source a).x.toNat = (lo a.d).toNat + source.toNat :=
  addxw_low source { a with x := false }

end M68k
