import MagxNet.Lib.Ones
import MagxNet.Chksum.Routines

set_option autoImplicit false

namespace MagxNet.Chksum

open Bytes M68k Ones

-- RFC 1071: the complement of the one's complement sum of the 16-bit words.
def rfc1071 (values : List (BitVec 16)) : BitVec 16 := ~~~onesSum values

def words (buf : Buffer) : Nat → Nat → List (BitVec 16)
  | _, 0 => []
  | p, n + 1 => get16 buf p :: words buf (p + 2) n

-- An odd byte at the end is the high half of a last word.
def dataWords (buf : Buffer) (len : Nat) : List (BitVec 16) :=
  words buf 0 (len / 2) ++ if len % 2 = 1 then [highByte (get8 buf (len - 1))] else []

def pseudoWords (proto : BitVec 16) (srcadr dstadr : BitVec 32) (len : BitVec 16) : List (BitVec 16) :=
  [hi srcadr, lo srcadr, hi dstadr, lo dstadr, proto, len]

theorem words_add (buf : Buffer) (p m n : Nat) : words buf p (m + n) = words buf p m ++ words buf (p + 2 * m) n := by
  induction m generalizing p with
  | zero => simp [words]
  | succ m ih =>
      rw [show m + 1 + n = m + n + 1 by omega, words, words, ih, List.cons_append]
      congr 3
      omega

theorem total_words_le (buf : Buffer) (p n : Nat) : total (words buf p n) ≤ n * 65535 := by
  induction n generalizing p with
  | zero => exact Nat.le_refl 0
  | succ n ih =>
      have rest := ih (p + 2)
      have bound := (get16 buf p).isLt
      rw [words, total_cons]
      omega

-- A long word stands for the sum of its halves.
theorem halves_stand (d : BitVec 32) : Stands 16 d.toNat ((hi d).toNat + (lo d).toNat) := by
  have carry := stands_carry 16 1 (hi d).toNat
  have sum := stands_add_right carry (lo d).toNat
  rw [halves d, Nat.mul_comm]
  simpa using sum

theorem get32_stands (buf : Buffer) (p : Nat) : Stands 16 (get32 buf p).toNat (total (words buf p 2)) := by
  have h := halves_stand (get32 buf p)
  have high : hi (get32 buf p) = get16 buf p := hi_append _ _
  have low : lo (get32 buf p) = get16 buf (p + 2) := lo_append _ _
  rw [high, low] at h
  exact h

-- The register and the flag behind an addition, as a one's complement value.
theorem addxl_stands (source : BitVec 32) (a : Acc) (t v : Nat) (h : Stands 16 (a.d.toNat + a.x.toNat) t)
    (value : Stands 16 source.toNat v) :
    Stands 16 ((addxl source a).d.toNat + (addxl source a).x.toNat) (t + v) := by
  have number := addxl_number source a
  have carry := stands_carry 16 2 (addxl source a).x.toNat
  have sum := stands_add (stands_refl 16 (addxl source a).d.toNat) (stands_symm carry)
  rw [show 2 ^ (16 * 2) = 2 ^ 32 by rfl, number, Nat.add_right_comm] at sum
  exact stands_trans sum (stands_add h value)

theorem addl_stands (source : BitVec 32) (a : Acc) (t v : Nat) (h : Stands 16 a.d.toNat t)
    (value : Stands 16 source.toNat v) : Stands 16 ((addl source a).d.toNat + (addl source a).x.toNat) (t + v) :=
  addxl_stands source { a with x := false } t v h value

theorem addxw_stands (source : BitVec 16) (a : Acc) (t : Nat) (h : Stands 16 (a.d.toNat + a.x.toNat) t) :
    Stands 16 ((addxw source a).d.toNat + (addxw source a).x.toNat) (t + source.toNat) := by
  have number := addxw_number source a
  have carry := stands_carry 16 1 (addxw source a).x.toNat
  have sum := stands_add (stands_refl 16 (addxw source a).d.toNat) (stands_symm carry)
  rw [show 2 ^ (16 * 1) = 2 ^ 16 by rfl, number, Nat.add_right_comm] at sum
  exact stands_trans sum (stands_add_right h _)

theorem addw_stands (source : BitVec 16) (a : Acc) (t : Nat) (h : Stands 16 a.d.toNat t) :
    Stands 16 ((addw source a).d.toNat + (addw source a).x.toNat) (t + source.toNat) :=
  addxw_stands source { a with x := false } t h

-- There is room for the flag in the register unless that is all ones and the flag is set. No
-- chain of additions that begins with the flag clear leads there.
def RoomLong (a : Acc) : Prop := a.d.toNat + a.x.toNat < 2 ^ 32
def RoomWord (a : Acc) : Prop := (lo a.d).toNat + a.x.toNat < 2 ^ 16

theorem addxl_room (source : BitVec 32) (a : Acc) (room : RoomLong a) : RoomLong (addxl source a) := by
  have number := addxl_number source a
  have bound := source.isLt
  have kept := (addxl source a).d.isLt
  unfold RoomLong at *
  omega

theorem clear_room (d : BitVec 32) : RoomLong ⟨d, false⟩ := d.isLt

theorem addl_room (source : BitVec 32) (a : Acc) : RoomLong (addl source a) :=
  addxl_room source { a with x := false } (clear_room a.d)

theorem addxw_room (source : BitVec 16) (a : Acc) (room : RoomWord a) : RoomWord (addxw source a) := by
  have number := addxw_low source a
  have bound := source.isLt
  have kept := (lo (addxw source a).d).isLt
  unfold RoomWord at *
  omega

theorem addw_room (source : BitVec 16) (a : Acc) : RoomWord (addw source a) := by
  have start : RoomWord { a with x := false } := (lo a.d).isLt
  exact addxw_room source _ start

-- With room for it, adding the flag in leaves none behind.
theorem settle_long (a : Acc) (t : Nat) (h : Stands 16 (a.d.toNat + a.x.toNat) t) (room : RoomLong a) :
    Stands 16 (addxl 0 a).d.toNat t := by
  have number := addxl_number 0 a
  have none : (0 : BitVec 32).toNat = 0 := rfl
  have kept := (addxl 0 a).d.isLt
  unfold RoomLong at room
  have value : (addxl 0 a).d.toNat = a.d.toNat + a.x.toNat := by omega
  rwa [value]

theorem settle_word (a : Acc) (t : Nat) (h : Stands 16 (a.d.toNat + a.x.toNat) t) (room : RoomWord a) :
    Stands 16 (addxw 0 a).d.toNat t := by
  have number := addxw_number 0 a
  have low := addxw_low 0 a
  have none : (0 : BitVec 16).toNat = 0 := rfl
  have kept := (lo (addxw 0 a).d).isLt
  unfold RoomWord at room
  have value : (addxw 0 a).d.toNat = a.d.toNat + a.x.toNat := by omega
  rwa [value]

theorem long_added (source : BitVec 32) (a : Acc) (t v : Nat) (h : Stands 16 a.d.toNat t)
    (value : Stands 16 source.toNat v) : Stands 16 (addxl 0 (addl source a)).d.toNat (t + v) :=
  settle_long _ _ (addl_stands source a t v h value) (addl_room source a)

theorem word_added (source : BitVec 16) (a : Acc) (t : Nat) (h : Stands 16 a.d.toNat t) :
    Stands 16 (addxw 0 (addw source a)).d.toNat (t + source.toNat) :=
  settle_word _ _ (addw_stands source a t h) (addw_room source a)

theorem loop4_spec (buf : Buffer) (d1 p : Nat) (sum : Acc) (t : Nat) (h : Stands 16 sum.d.toNat t) :
    (loop4 buf d1 p sum).1 = p + 4 * (d1 + 1) ∧
      Stands 16 (loop4 buf d1 p sum).2.d.toNat (t + total (words buf p (2 * (d1 + 1)))) := by
  induction d1 generalizing p sum t with
  | zero => exact ⟨rfl, long_added _ sum t _ h (get32_stands buf p)⟩
  | succ d1 ih =>
      obtain ⟨place, value⟩ := ih (p + 4) _ _ (long_added _ sum t _ h (get32_stands buf p))
      refine ⟨?_, ?_⟩
      · rw [loop4, place]
        omega
      · rw [show 2 * (d1 + 1 + 1) = 2 + 2 * (d1 + 1) by omega, words_add, total_append, ← Nat.add_assoc]
        exact value

theorem add16_stands (dgram : Buffer) (p : Nat) (sum : Acc) (t : Nat) (h : Stands 16 (sum.d.toNat + sum.x.toNat) t) :
    Stands 16 ((add16 dgram p sum).d.toNat + (add16 dgram p sum).x.toNat) (t + total (words dgram p 8)) := by
  have first := addxl_stands _ sum t _ h (get32_stands dgram p)
  have second := addxl_stands _ _ _ _ first (get32_stands dgram (p + 4))
  have third := addxl_stands _ _ _ _ second (get32_stands dgram (p + 8))
  have fourth := addxl_stands _ _ _ _ third (get32_stands dgram (p + 12))
  have eight : total (words dgram p 8) = total (words dgram p 2) + total (words dgram (p + 4) 2)
      + total (words dgram (p + 8) 2) + total (words dgram (p + 12) 2) := by
    rw [words_add dgram p 6 2, words_add dgram p 4 2, words_add dgram p 2 2, total_append, total_append, total_append]
  rw [eight, ← Nat.add_assoc, ← Nat.add_assoc, ← Nat.add_assoc]
  exact fourth

theorem add16_room (dgram : Buffer) (p : Nat) (sum : Acc) (room : RoomLong sum) : RoomLong (add16 dgram p sum) :=
  addxl_room _ _ (addxl_room _ _ (addxl_room _ _ (addxl_room _ sum room)))

theorem loop16_gnu_spec (dgram : Buffer) (d1 p : Nat) (sum : Acc) (t : Nat)
    (h : Stands 16 (sum.d.toNat + sum.x.toNat) t) (room : RoomLong sum) :
    (loop16Gnu dgram d1 p sum).1 = p + 16 * (d1 + 1) ∧ RoomLong (loop16Gnu dgram d1 p sum).2 ∧
      Stands 16 ((loop16Gnu dgram d1 p sum).2.d.toNat + (loop16Gnu dgram d1 p sum).2.x.toNat)
        (t + total (words dgram p (8 * (d1 + 1)))) := by
  induction d1 generalizing p sum t with
  | zero => exact ⟨rfl, add16_room dgram p sum room, add16_stands dgram p sum t h⟩
  | succ d1 ih =>
      obtain ⟨place, kept, value⟩ := ih (p + 16) _ _ (add16_stands dgram p sum t h) (add16_room dgram p sum room)
      refine ⟨?_, kept, ?_⟩
      · rw [loop16Gnu, place]
        omega
      · rw [show 8 * (d1 + 1 + 1) = 8 + 8 * (d1 + 1) by omega, words_add, total_append, ← Nat.add_assoc]
        exact value

-- Each round adds its own flag in, so only the register counts between two rounds.
theorem loop16_coldfire_spec (dgram : Buffer) (d1 p : Nat) (d : BitVec 32) (t : Nat) (h : Stands 16 d.toNat t) :
    (loop16Coldfire dgram d1 p ⟨d, false⟩).1 = p + 16 * (d1 + 1) ∧
      Stands 16 (loop16Coldfire dgram d1 p ⟨d, false⟩).2.d.toNat (t + total (words dgram p (8 * (d1 + 1)))) := by
  have round (p : Nat) (d : BitVec 32) (t : Nat) (h : Stands 16 d.toNat t) :
      Stands 16 (addxl 0 (add16 dgram p ⟨d, false⟩)).d.toNat (t + total (words dgram p 8)) :=
    settle_long _ _ (add16_stands dgram p ⟨d, false⟩ t h) (add16_room dgram p _ (clear_room d))
  induction d1 generalizing p d t with
  | zero => exact ⟨rfl, round p d t h⟩
  | succ d1 ih =>
      obtain ⟨place, value⟩ := ih (p + 16) _ _ (round p d t h)
      refine ⟨?_, ?_⟩
      · rw [loop16Coldfire, place]
        omega
      · rw [show 8 * (d1 + 1 + 1) = 8 + 8 * (d1 + 1) by omega, words_add, total_append, ← Nat.add_assoc]
        exact value

theorem shift_number {w : Nat} (value : BitVec w) (k : Nat) : (value >>> k).toNat = value.toNat / 2 ^ k := by
  rw [BitVec.toNat_ushiftRight, Nat.shiftRight_eq_div_pow]

-- A count that is not zero, one less.
theorem count_number {w : Nat} (value : BitVec w) (some : ¬value = 0) : (value - 1).toNat + 1 = value.toNat := by
  have positive : value.toNat ≠ 0 := fun zero => some (BitVec.eq_of_toNat_eq zero)
  have bound := value.isLt
  have one : (1 : BitVec w).toNat = 1 := by
    exact (BitVec.toNat_ofNat 1 w).trans (Nat.mod_eq_of_lt (by omega))
  rw [BitVec.toNat_sub, one]
  rw [show 2 ^ w - 1 + value.toNat = value.toNat - 1 + 2 ^ w by omega, Nat.add_mod_right, Nat.mod_eq_of_lt (by omega)]
  omega

theorem blocks_gnu_spec (dgram : Buffer) (len : BitVec 16) (sum : Acc) (t : Nat) (h : Stands 16 sum.d.toNat t) :
    (blocksGnu dgram len sum).1 = 16 * (len.toNat / 16) ∧
      Stands 16 (blocksGnu dgram len sum).2.d.toNat (t + total (words dgram 0 (8 * (len.toNat / 16)))) := by
  have rounds : len.toNat / 16 = (len >>> 4).toNat := (shift_number len 4).symm
  unfold blocksGnu
  dsimp only
  split
  next none => simpa [rounds, none, words] using h
  next some =>
      have count := count_number (len >>> 4) some
      obtain ⟨place, room, value⟩ := loop16_gnu_spec dgram (len >>> 4 - 1).toNat 0 { sum with x := false } t h (clear_room sum.d)
      rw [count, ← rounds] at place value
      rw [Nat.zero_add] at place
      exact ⟨place, settle_long _ _ value room⟩

theorem blocks_coldfire_spec (dgram : Buffer) (len : BitVec 16) (sum : Acc) (t : Nat) (h : Stands 16 sum.d.toNat t) :
    (blocksColdfire dgram len sum).1 = 16 * (len.toNat / 16) ∧
      Stands 16 (blocksColdfire dgram len sum).2.d.toNat (t + total (words dgram 0 (8 * (len.toNat / 16)))) := by
  have rounds : len.toNat / 16 = (mvzw len >>> 4).toNat := by
    rw [shift_number, mvzw_number]
    rfl
  unfold blocksColdfire
  dsimp only
  split
  next none => simpa [rounds, none, words] using h
  next some =>
      have count := count_number (mvzw len >>> 4) some
      obtain ⟨place, value⟩ := loop16_coldfire_spec dgram (mvzw len >>> 4 - 1).toNat 0 sum.d t h
      rw [count, ← rounds] at place value
      rw [Nat.zero_add] at place
      exact ⟨place, value⟩

theorem longs_spec (dgram : Buffer) (len : BitVec 16) (p : Nat) (sum : Acc) (t : Nat) (h : Stands 16 sum.d.toNat t) :
    (longs dgram len p sum).1 = p + 4 * (len.toNat % 16 / 4) ∧
      Stands 16 (longs dgram len p sum).2.d.toNat (t + total (words dgram p (2 * (len.toNat % 16 / 4)))) := by
  have rounds : len.toNat % 16 / 4 = ((len &&& 15) >>> 2).toNat := by
    rw [shift_number, BitVec.toNat_and]
    exact congrArg (· / 4) (Nat.and_two_pow_sub_one_eq_mod len.toNat 4).symm
  unfold longs
  dsimp only
  split
  next none =>
      have zero : len.toNat % 16 / 4 = 0 := by rw [rounds, none]; rfl
      rw [zero]
      exact ⟨rfl, h⟩
  next some =>
      have count := count_number ((len &&& 15) >>> 2) some
      obtain ⟨place, value⟩ := loop4_spec dgram ((len &&& 15) >>> 2 - 1).toNat p sum t h
      rw [count, ← rounds] at place value
      exact ⟨place, value⟩

theorem bit_zero {w : Nat} (value : BitVec w) : value.getLsbD 0 = decide (value.toNat % 2 = 1) := by
  rw [← BitVec.testBit_toNat, Nat.testBit_zero]

theorem bit_one {w : Nat} (value : BitVec w) : value.getLsbD 1 = decide (value.toNat / 2 % 2 = 1) := by
  rw [← BitVec.testBit_toNat, Nat.testBit_succ, Nat.testBit_zero]

-- The word and the byte behind the last long word, at the place p they start at.
def tailWords (dgram : Buffer) (len p : Nat) : List (BitVec 16) :=
  words dgram p (len / 2 % 2) ++ if len % 2 = 1 then [highByte (get8 dgram (p + 2 * (len / 2 % 2)))] else []

theorem mvzw_stands (source : BitVec 16) : Stands 16 (mvzw source).toNat source.toNat := by
  rw [mvzw_number]
  exact stands_refl 16 _

theorem tail_gnu_spec (dgram : Buffer) (len : BitVec 16) (p : Nat) (sum : Acc) (t : Nat) (h : Stands 16 sum.d.toNat t) :
    Stands 16 (tailGnu dgram len p sum).d.toNat (t + total (tailWords dgram len.toNat p)) := by
  have odd (p : Nat) (sum : Acc) (t : Nat) (h : Stands 16 sum.d.toNat t) :
      Stands 16 (if len.getLsbD 0 then addxw 0 (addw (highByte (get8 dgram p)) sum) else sum).d.toNat
        (t + total (if len.toNat % 2 = 1 then [highByte (get8 dgram p)] else [])) := by
    rw [bit_zero]
    by_cases last : len.toNat % 2 = 1
    · simpa [last] using word_added (highByte (get8 dgram p)) sum t h
    · simpa [last] using h
  unfold tailGnu tailWords
  rw [bit_one, total_append, ← Nat.add_assoc]
  by_cases pair : len.toNat / 2 % 2 = 1
  · have added := odd (p + 2) _ _ (word_added (get16 dgram p) sum t h)
    simpa [pair, words] using added
  · have none : len.toNat / 2 % 2 = 0 := by omega
    simpa [none, words] using odd p sum t h

theorem tail_coldfire_spec (dgram : Buffer) (len : BitVec 16) (p : Nat) (sum : Acc) (t : Nat)
    (h : Stands 16 sum.d.toNat t) :
    Stands 16 (tailColdfire dgram len p sum).d.toNat (t + total (tailWords dgram len.toNat p)) := by
  have odd (p : Nat) (sum : Acc) (t : Nat) (h : Stands 16 sum.d.toNat t) :
      Stands 16 (if len.getLsbD 0 then addxl 0 (addl (mvzw (highByte (get8 dgram p))) sum) else sum).d.toNat
        (t + total (if len.toNat % 2 = 1 then [highByte (get8 dgram p)] else [])) := by
    rw [bit_zero]
    by_cases last : len.toNat % 2 = 1
    · simpa [last] using long_added _ sum t _ h (mvzw_stands (highByte (get8 dgram p)))
    · simpa [last] using h
  unfold tailColdfire tailWords
  rw [bit_one, total_append, ← Nat.add_assoc]
  by_cases pair : len.toNat / 2 % 2 = 1
  · have added := odd (p + 2) _ _ (long_added _ sum t _ h (mvzw_stands (get16 dgram p)))
    simpa [pair, words] using added
  · have none : len.toNat / 2 % 2 = 0 := by omega
    simpa [none, words] using odd p sum t h

-- The blocks of sixteen bytes, the longs and the tail are the words of the datagram.
theorem data_words_split (dgram : Buffer) (len : Nat) :
    total (dataWords dgram len) = total (words dgram 0 (8 * (len / 16)))
      + total (words dgram (16 * (len / 16)) (2 * (len % 16 / 4)))
      + total (tailWords dgram len (16 * (len / 16) + 4 * (len % 16 / 4))) := by
  have count : len / 2 = 8 * (len / 16) + 2 * (len % 16 / 4) + len / 2 % 2 := by omega
  have split : words dgram 0 (len / 2) = words dgram 0 (8 * (len / 16)) ++ words dgram (16 * (len / 16)) (2 * (len % 16 / 4))
      ++ words dgram (16 * (len / 16) + 4 * (len % 16 / 4)) (len / 2 % 2) := by
    conv => lhs; rw [count, words_add, words_add]
    congr 2
    · congr 1
      omega
    · omega
  rw [dataWords, tailWords, total_append, total_append, split, total_append, total_append, Nat.add_assoc _ _ (total _)]
  congr 3
  split
  next odd => rw [show len - 1 = 16 * (len / 16) + 4 * (len % 16 / 4) + 2 * (len / 2 % 2) by omega]
  next => rfl

theorem fold_gnu_spec (sum : Acc) (t : Nat) (h : Stands 16 sum.d.toNat t) : Stands 16 (~~~foldGnu sum).toNat t := by
  have high : lo (swap sum.d) = hi sum.d := lo_append _ _
  have whole := halves_stand sum.d
  have number := addw_low (hi sum.d) sum
  have folded := addxw_low 0 (addw (hi sum.d) sum)
  have none : (0 : BitVec 16).toNat = 0 := rfl
  have bound := (hi sum.d).isLt
  have low := (lo sum.d).isLt
  have kept := (lo (addw (hi sum.d) sum).d).isLt
  have carry := stands_carry 16 1 (addw (hi sum.d) sum).x.toNat
  have result : (lo (addxw 0 (addw (hi sum.d) sum)).d).toNat
      = (lo (addw (hi sum.d) sum).d).toNat + (addw (hi sum.d) sum).x.toNat := by
    have last := (lo (addxw 0 (addw (hi sum.d) sum)).d).isLt
    omega
  rw [foldGnu, BitVec.not_not, high, result]
  have value := stands_add (stands_refl 16 (lo (addw (hi sum.d) sum).d).toNat) (stands_symm carry)
  rw [show 2 ^ (16 * 1) = 2 ^ 16 by rfl, number, Nat.add_comm (lo sum.d).toNat] at value
  exact stands_trans value (stands_trans (stands_symm whole) h)

theorem fold1_number (d : BitVec 32) : (fold1 d).toNat = (hi d).toNat + (lo d).toNat := by
  have high : lo (swap d) = hi d := lo_append _ _
  have low : hi (swap d) = lo d := hi_append _ _
  have first := (hi d).isLt
  have second := (lo d).isLt
  unfold fold1
  dsimp only
  rw [swap_clrw, high, low, BitVec.toNat_add, mvzw_number, mvzw_number, Nat.mod_eq_of_lt (by omega), Nat.add_comm]

theorem fold_coldfire_spec (sum : Acc) (t : Nat) (h : Stands 16 sum.d.toNat t) :
    Stands 16 (~~~foldColdfire sum).toNat t := by
  have once := fold1_number sum.d
  have twice := fold1_number (fold1 sum.d)
  have first := (hi sum.d).isLt
  have second := (lo sum.d).isLt
  have outer := halves_stand (fold1 sum.d)
  have inner := halves_stand sum.d
  rw [← twice] at outer
  rw [← once] at inner
  have small : (fold1 (fold1 sum.d)).toNat < 2 ^ 16 := by
    rw [twice, hi_number, lo_number, once]
    omega
  rw [foldColdfire, BitVec.not_not, lo_number, Nat.mod_eq_of_lt small]
  exact stands_trans (stands_symm outer) (stands_trans (stands_symm inner) h)

theorem pseudo_start (proto : BitVec 16) (srcadr dstadr : BitVec 32) :
    Stands 16 ((addxl dstadr (addl srcadr ⟨mvzw proto, false⟩)).d.toNat
        + (addxl dstadr (addl srcadr ⟨mvzw proto, false⟩)).x.toNat)
      (proto.toNat + ((hi srcadr).toNat + (lo srcadr).toNat) + ((hi dstadr).toNat + (lo dstadr).toNat)) :=
  addxl_stands dstadr _ _ _ (addl_stands srcadr _ _ _ (mvzw_stands proto) (halves_stand srcadr)) (halves_stand dstadr)

theorem pseudo_total (proto : BitVec 16) (srcadr dstadr : BitVec 32) (len : BitVec 16) :
    total (pseudoWords proto srcadr dstadr len) = proto.toNat + ((hi srcadr).toNat + (lo srcadr).toNat)
      + ((hi dstadr).toNat + (lo dstadr).toNat) + len.toNat := by
  simp only [pseudoWords, total_cons, total_nil]
  omega

-- The length of a datagram is below the all-ones word, so that the second flag finds room too.
theorem pseudo_gnu_spec (proto : BitVec 16) (srcadr dstadr : BitVec 32) (len : BitVec 16) (bound : len.toNat < 65535) :
    Stands 16 (pseudoGnu proto srcadr dstadr len).d.toNat (total (pseudoWords proto srcadr dstadr len)) := by
  have sum := addxw_stands len _ _ (pseudo_start proto srcadr dstadr)
  rw [← pseudo_total] at sum
  refine settle_word _ _ sum ?_
  have number := addxw_low len (addxl dstadr (addl srcadr ⟨mvzw proto, false⟩))
  have before := (lo (addxl dstadr (addl srcadr ⟨mvzw proto, false⟩)).d).isLt
  have after := (lo (addxw len (addxl dstadr (addl srcadr ⟨mvzw proto, false⟩))).d).isLt
  have flag := carry_lt (addxl dstadr (addl srcadr ⟨mvzw proto, false⟩)).x
  unfold RoomWord
  omega

theorem pseudo_coldfire_spec (proto : BitVec 16) (srcadr dstadr : BitVec 32) (len : BitVec 16) :
    Stands 16 (pseudoColdfire proto srcadr dstadr len).d.toNat (total (pseudoWords proto srcadr dstadr len)) := by
  have sum := addxl_stands (mvzw len) _ _ _ (pseudo_start proto srcadr dstadr) (mvzw_stands len)
  rw [← pseudo_total] at sum
  exact settle_long _ _ sum (addxl_room _ _ (addxl_room _ _ (addl_room _ _)))

theorem rfc1071_of_stands (result : BitVec 16) (values : List (BitVec 16)) (h : Stands 16 (~~~result).toNat (total values)) :
    result = rfc1071 values := by
  rw [rfc1071, ← ones_sum_eq values _ h, BitVec.not_not]

theorem checksum_gnu_rfc1071 (proto : BitVec 16) (dgram : Buffer) (srcadr dstadr : BitVec 32) (len : BitVec 16)
    (bound : len.toNat < 65535) :
    checksumGnu proto dgram srcadr dstadr len = rfc1071 (pseudoWords proto srcadr dstadr len ++ dataWords dgram len.toNat) := by
  obtain ⟨place, blocks⟩ := blocks_gnu_spec dgram len _ _ (pseudo_gnu_spec proto srcadr dstadr len bound)
  obtain ⟨next, longs⟩ := longs_spec dgram len (16 * (len.toNat / 16)) _ _ blocks
  have tail := fold_gnu_spec _ _ (tail_gnu_spec dgram len (16 * (len.toNat / 16) + 4 * (len.toNat % 16 / 4)) _ _ longs)
  apply rfc1071_of_stands
  rw [total_append, data_words_split, ← Nat.add_assoc, ← Nat.add_assoc]
  unfold checksumGnu
  dsimp only
  rw [place, next]
  exact tail

theorem checksum_coldfire_rfc1071 (proto : BitVec 16) (dgram : Buffer) (srcadr dstadr : BitVec 32) (len : BitVec 16) :
    checksumColdfire proto dgram srcadr dstadr len
      = rfc1071 (pseudoWords proto srcadr dstadr len ++ dataWords dgram len.toNat) := by
  obtain ⟨place, blocks⟩ := blocks_coldfire_spec dgram len _ _ (pseudo_coldfire_spec proto srcadr dstadr len)
  obtain ⟨next, longs⟩ := longs_spec dgram len (16 * (len.toNat / 16)) _ _ blocks
  have tail := fold_coldfire_spec _ _ (tail_coldfire_spec dgram len (16 * (len.toNat / 16) + 4 * (len.toNat % 16 / 4)) _ _ longs)
  apply rfc1071_of_stands
  rw [total_append, data_words_split, ← Nat.add_assoc, ← Nat.add_assoc]
  unfold checksumColdfire
  dsimp only
  rw [place, next]
  exact tail

end MagxNet.Chksum
