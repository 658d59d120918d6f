import MagxNet.Chksum.Rfc1071

set_option autoImplicit false

namespace MagxNet.Chksum

open Bytes M68k Ones

-- The word loop of chksum.s: no more than 65536 words, so the long register never wraps.
theorem loop2_spec (dgram : Buffer) (d1 p : Nat) (d0 : BitVec 32)
    (room : d0.toNat + total (words dgram p (d1 + 1)) < 2 ^ 32) :
    (loop2 dgram d1 p d0).1 = p + 2 * (d1 + 1) ∧
      (loop2 dgram d1 p d0).2.toNat = d0.toNat + total (words dgram p (d1 + 1)) := by
  induction d1 generalizing p d0 with
  | zero =>
      refine ⟨rfl, ?_⟩
      simp only [words, total_cons, total_nil, Nat.add_zero] at room
      simp only [loop2, words, total_cons, total_nil, Nat.add_zero]
      rw [BitVec.toNat_add, mvzw_number, Nat.mod_eq_of_lt room]
  | succ d1 ih =>
      have head : words dgram p (d1 + 1 + 1) = get16 dgram p :: words dgram (p + 2) (d1 + 1) := rfl
      rw [head, total_cons, ← Nat.add_assoc] at room
      have value : (d0 + mvzw (get16 dgram p)).toNat = d0.toNat + (get16 dgram p).toNat := by
        rw [BitVec.toNat_add, mvzw_number, Nat.mod_eq_of_lt (by omega)]
      obtain ⟨place, sum⟩ := ih (p + 2) (d0 + mvzw (get16 dgram p)) (by rwa [value])
      refine ⟨?_, ?_⟩
      · rw [loop2, place]
        omega
      · rw [loop2, sum, value, head, total_cons, Nat.add_assoc]

theorem rotated_low (len : BitVec 16) : (lo ((mvzw len).rotateRight 1)).toNat = len.toNat / 2 := by
  have bound := len.isLt
  have value : (mvzw len).rotateRight 1 = mvzw len >>> 1 ||| mvzw len <<< 31 := rfl
  have same : lo (mvzw len >>> 1 ||| mvzw len <<< 31) = len >>> 1 := by
    apply BitVec.eq_of_getLsbD_eq
    intro i inside
    simp only [lo, mvzw, BitVec.getLsbD_extractLsb', BitVec.getLsbD_or, BitVec.getLsbD_ushiftRight,
      BitVec.getLsbD_shiftLeft, BitVec.getLsbD_append]
    by_cases last : i = 15
    · subst last
      simp
    · simp [inside, show 1 + i < 16 by omega, show i < 31 by omega]
  rw [value, same, shift_number]
  rfl

theorem rotated_top (len : BitVec 16) : ((mvzw len).rotateRight 1).msb = decide (len.toNat % 2 = 1) := by
  have value : (mvzw len).rotateRight 1 = mvzw len >>> 1 ||| mvzw len <<< 31 := rfl
  rw [value, ← bit_zero, BitVec.msb_eq_getLsbD_last, BitVec.getLsbD_or, BitVec.getLsbD_ushiftRight, BitVec.getLsbD_shiftLeft,
    mvzw, BitVec.getLsbD_append, BitVec.getLsbD_append]
  rfl

theorem pseudo_purec_spec (srcadr dstadr : BitVec 32) :
    let low := addw (lo srcadr) ⟨dstadr, false⟩
    let high := addxw (lo low.d) ⟨swap (clrw srcadr), low.x⟩
    (addxl (swap (clrw low.d)) high).d.toNat < 2 ^ 17 + 2 ∧
      Stands 16 (addxl (swap (clrw low.d)) high).d.toNat
        ((hi srcadr).toNat + (lo srcadr).toNat + ((hi dstadr).toNat + (lo dstadr).toNat)) := by
  intro low high
  have lows : (lo low.d).toNat + 2 ^ 16 * low.x.toNat = (lo dstadr).toNat + (lo srcadr).toNat := addw_low (lo srcadr) ⟨dstadr, false⟩
  have kept : hi low.d = hi dstadr := hi_append _ _
  have highs : high.d.toNat + 2 ^ 16 * high.x.toNat = (hi srcadr).toNat + (lo low.d).toNat + low.x.toNat := by
    have number := addxw_number (lo low.d) ⟨swap (clrw srcadr), low.x⟩
    rw [swap_clrw, mvzw_number] at number
    simpa only [high, swap_clrw] using number
  have small : high.d.toNat < 2 ^ 16 := by
    have parts := halves high.d
    have zero : hi high.d = 0 := by
      simp only [high, addxw, hi_append, swap_clrw]
      exact hi_append _ _
    have bound := (lo high.d).isLt
    rw [zero] at parts
    simp at parts
    omega
  have top := (hi dstadr).isLt
  have bound := (hi srcadr).isLt
  have flag := carry_lt high.x
  have number := addxl_number (swap (clrw low.d)) high
  rw [swap_clrw, mvzw_number, kept] at number
  have result : (addxl (swap (clrw low.d)) high).d.toNat = high.d.toNat + (hi dstadr).toNat + high.x.toNat := by
    have inside := (addxl (mvzw (hi low.d)) high).d.isLt
    rw [swap_clrw, kept]
    omega
  refine ⟨by omega, ?_⟩
  rw [result]
  have first := stands_add (stands_refl 16 (high.d.toNat + (hi dstadr).toNat)) (stands_symm (stands_carry 16 1 high.x.toNat))
  have second := stands_add (stands_refl 16 ((hi srcadr).toNat + (lo low.d).toNat + (hi dstadr).toNat))
    (stands_symm (stands_carry 16 1 low.x.toNat))
  have middle : high.d.toNat + (hi dstadr).toNat + 2 ^ (16 * 1) * high.x.toNat
      = (hi srcadr).toNat + (lo low.d).toNat + (hi dstadr).toNat + low.x.toNat := by
    rw [show 2 ^ (16 * 1) = 2 ^ 16 by rfl]
    omega
  have last : (hi srcadr).toNat + (lo low.d).toNat + (hi dstadr).toNat + 2 ^ (16 * 1) * low.x.toNat
      = (hi srcadr).toNat + (lo srcadr).toNat + ((hi dstadr).toNat + (lo dstadr).toNat) := by
    rw [show 2 ^ (16 * 1) = 2 ^ 16 by rfl]
    omega
  rw [middle] at first
  rw [last] at second
  exact stands_trans first second

-- The halves of the register added as words: a value below 2^16 with the same meaning.
theorem fold_purec_spec (d0 : BitVec 32) :
    Stands 16 (lo (addxw 0 (addw (lo d0) ⟨swap (clrw d0), false⟩)).d).toNat d0.toNat := by
  have folded := settle_word _ _ (addw_stands (lo d0) ⟨mvzw (hi d0), false⟩ (hi d0).toNat (mvzw_stands (hi d0)))
    (addw_room (lo d0) ⟨mvzw (hi d0), false⟩)
  have short : hi (addxw 0 (addw (lo d0) ⟨mvzw (hi d0), false⟩)).d = 0 := by
    simp only [addxw, addw, hi_append, mvzw]
  have value := halves (addxw 0 (addw (lo d0) ⟨mvzw (hi d0), false⟩)).d
  have same : (lo (addxw 0 (addw (lo d0) ⟨mvzw (hi d0), false⟩)).d).toNat
      = (addxw 0 (addw (lo d0) ⟨mvzw (hi d0), false⟩)).d.toNat := by
    rw [value, short]
    simp
  rw [swap_clrw, same]
  exact stands_trans folded (stands_symm (halves_stand d0))

-- The loop and the odd byte of chksum.s, from a register that holds the pseudo header.
theorem data_purec_spec (dgram : Buffer) (len : BitVec 16) (start : BitVec 32) (some : 2 ≤ len.toNat)
    (small : start.toNat < 2 ^ 18) :
    let d1 := (mvzw len).rotateRight 1
    let reached := if d1 = 0 then (0, start) else loop2 dgram (lo d1 - 1).toNat 0 start
    (if d1.msb then reached.2 + mvzw (highByte (get8 dgram reached.1)) else reached.2).toNat
      = start.toNat + total (dataWords dgram len.toNat) := by
  intro d1
  have rotated : (lo d1).toNat = len.toNat / 2 := rotated_low len
  have bound := total_words_le dgram 0 (len.toNat / 2)
  have lenLt := len.isLt
  have low : ¬lo d1 = 0 := by
    intro zero
    rw [zero] at rotated
    have none : (0 : BitVec 16).toNat = 0 := rfl
    omega
  have loop : ¬d1 = 0 := fun zero => low (by rw [zero]; rfl)
  have count := count_number (lo d1) low
  rw [rotated] at count
  obtain ⟨place, sum⟩ := loop2_spec dgram (lo d1 - 1).toNat 0 start (by
    rw [count]
    omega)
  rw [count] at place sum
  rw [if_neg loop]
  dsimp only
  rw [dataWords, total_append, place, Nat.zero_add, rotated_top]
  by_cases odd : len.toNat % 2 = 1
  · have byte := (highByte (get8 dgram (2 * (len.toNat / 2)))).isLt
    rw [if_pos (by simpa using odd), if_pos odd, BitVec.toNat_add, mvzw_number, sum, Nat.mod_eq_of_lt (by omega),
      show len.toNat - 1 = 2 * (len.toNat / 2) by omega, total_cons, total_nil]
    omega
  · rw [if_neg (by simpa using odd), if_neg odd, sum, total_nil]
    omega

theorem tcp_chksum1_rfc1071 (proto : BitVec 16) (dgram : Buffer) (srcadr dstadr : BitVec 32) (len : BitVec 16)
    (some : 2 ≤ len.toNat) :
    tcp_chksum1 dgram srcadr dstadr (proto ++ len)
      = rfc1071 (pseudoWords proto srcadr dstadr len ++ dataWords dgram len.toNat) := by
  obtain ⟨small, addresses⟩ := pseudo_purec_spec srcadr dstadr
  apply rfc1071_of_stands
  rw [total_append, pseudo_total]
  unfold tcp_chksum1
  dsimp only
  generalize (addxl (swap (clrw (addw (lo srcadr) ⟨dstadr, false⟩).d))
    (addxw (lo (addw (lo srcadr) ⟨dstadr, false⟩).d) ⟨swap (clrw srcadr), (addw (lo srcadr) ⟨dstadr, false⟩).x⟩)).d
    = start at small addresses ⊢
  rw [swap_clrw (proto ++ len), hi_append, lo_append, BitVec.not_not]
  have lenLt := len.isLt
  have protoLt := proto.isLt
  have header : (start + mvzw len + mvzw proto).toNat = start.toNat + len.toNat + proto.toNat := by
    rw [BitVec.toNat_add, BitVec.toNat_add, mvzw_number, mvzw_number, Nat.mod_add_mod, Nat.mod_eq_of_lt (by omega)]
  have whole := data_purec_spec dgram len (start + mvzw len + mvzw proto) some (by omega)
  refine stands_trans (fold_purec_spec _) ?_
  dsimp only at whole
  rw [whole, header]
  have sums := stands_add_right addresses (len.toNat + proto.toNat + total (dataWords dgram len.toNat))
  convert sums using 1 <;> omega

-- The longs of chksum: with none of them the count is negative at once.
theorem chksum_longs {w : Nat} (buf : Buffer) (d1 : BitVec w) (p : Nat) (sum : Acc) (t : Nat) (wide : 1 ≤ w)
    (small : 2 * d1.toNat < 2 ^ w) (h : Stands 16 sum.d.toNat t) :
    Stands 16 (if (d1 - 1).msb then (p, sum) else loop4 buf (d1 - 1).toNat p sum).2.d.toNat
      (t + total (words buf p (2 * d1.toNat))) := by
  by_cases none : d1 = 0
  · have zero : d1.toNat = 0 := by
      rw [none]
      exact (BitVec.toNat_ofNat 0 w).trans (Nat.zero_mod _)
    have two : 2 ^ 1 ≤ 2 ^ w := Nat.pow_le_pow_right (by omega) wide
    have one : (1 : BitVec w).toNat = 1 := (BitVec.toNat_ofNat 1 w).trans (Nat.mod_eq_of_lt (by omega))
    have negative : (d1 - 1).msb = true := by
      rw [BitVec.msb_eq_true_iff_two_mul_ge, BitVec.toNat_sub, one, zero, Nat.add_zero, Nat.mod_eq_of_lt (by omega)]
      omega
    rw [if_pos negative, zero]
    exact h
  · have count := count_number d1 none
    have positive : (d1 - 1).msb = false := BitVec.msb_eq_false_iff_two_mul_lt.mpr (by omega)
    rw [if_neg (by rw [positive]; exact Bool.false_ne_true), ← count]
    exact (loop4_spec buf (d1 - 1).toNat p sum t h).2

theorem words_odd (buf : Buffer) (n : Nat) :
    total (words buf 0 n) = total (words buf 0 (n % 2)) + total (words buf (2 * (n % 2)) (2 * (n / 2))) := by
  conv => lhs; rw [show n = n % 2 + 2 * (n / 2) by omega, words_add, total_append, Nat.zero_add]

theorem chksum_gnu_rfc1071 (buf : Buffer) (nwords : BitVec 16) :
    chksumGnu buf nwords = rfc1071 (words buf 0 nwords.toNat) := by
  have half : (nwords >>> 1).toNat = nwords.toNat / 2 := shift_number nwords 1
  have bound := nwords.isLt
  have start : Stands 16 (0 : BitVec 32).toNat 0 := stands_refl 16 0
  apply rfc1071_of_stands
  unfold chksumGnu
  dsimp only
  apply fold_gnu_spec
  rw [words_odd, ← half, bit_zero]
  by_cases odd : nwords.toNat % 2 = 1
  · have head : total (words buf 0 1) = 0 + (get16 buf 0).toNat := by simp [words]
    simp only [odd, decide_true, if_true]
    rw [head]
    have first := word_added (get16 buf 0) ⟨0, false⟩ 0 start
    exact chksum_longs buf (nwords >>> 1) 2 _ _ (by decide) (by omega) first
  · have even : nwords.toNat % 2 = 0 := by omega
    simp only [even, zero_ne_one, decide_false, Bool.false_eq_true, if_false]
    exact chksum_longs buf (nwords >>> 1) 0 ⟨0, false⟩ 0 (by decide) (by omega) start

theorem chksum_coldfire_rfc1071 (buf : Buffer) (nwords : BitVec 16) :
    chksumColdfire buf nwords = rfc1071 (words buf 0 nwords.toNat) := by
  have half : (mvzw nwords >>> 1).toNat = nwords.toNat / 2 := by
    rw [shift_number, mvzw_number]
    rfl
  have bound := nwords.isLt
  have start : Stands 16 (0 : BitVec 32).toNat 0 := stands_refl 16 0
  apply rfc1071_of_stands
  unfold chksumColdfire
  dsimp only
  apply fold_coldfire_spec
  rw [words_odd, ← half, bit_zero]
  by_cases odd : nwords.toNat % 2 = 1
  · have head : total (words buf 0 1) = 0 + (get16 buf 0).toNat := by simp [words]
    simp only [odd, decide_true, if_true]
    rw [head]
    have first := long_added (mvzw (get16 buf 0)) ⟨0, false⟩ 0 _ start (mvzw_stands (get16 buf 0))
    exact chksum_longs buf (mvzw nwords >>> 1) 2 _ _ (by decide) (by omega) first
  · have even : nwords.toNat % 2 = 0 := by omega
    simp only [even, zero_ne_one, decide_false, Bool.false_eq_true, if_false]
    exact chksum_longs buf (mvzw nwords >>> 1) 0 ⟨0, false⟩ 0 (by decide) (by omega) start

end MagxNet.Chksum
